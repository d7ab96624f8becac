import EnvCensus.Script.Grammar.Expressions

/-! Classes: a heritage and a body of methods, fields, static blocks and, in typed scripts,
signatures. -/
namespace EnvCensus.Script.Grammar

open Script.Parser

variable (g : Grammar)

/-- The classes and interfaces that a class builds on. -/
def heritage : Parser (List Tree) := do
  let parent ← maybe (do
    let extends_ ← keyword "extends"
    let first ← if g.isTyped then g.rule .reference else g.rule .expression
    let types ← g.ifTyped (one (g.rule .typeArguments))
    return extends_ :: first :: types)
  let contracts ← g.ifTyped (do
    let implements_ ← keyword "implements"
    return implements_ :: (← g.commaList (one (g.rule .typeExpression))))
  return parent ++ contracts

def staticBlock : Parser (List Tree) := do
  let static ← keyword "static"
  ensure ((← peekOperator) == "\x7b")
  return [static, ← g.rule .block]

def memberModifiers : List String :=
  if g.isTyped then
    ["static", "get", "set", "async", "accessor", "public", "private", "protected", "override",
     "readonly", "declare", "abstract"]
  else ["static", "get", "set", "async", "accessor"]

/-- The end of a member without a body. -/
def memberEnd (afterOperand : Bool) : Parser (List Tree) :=
  (do
    ensure g.isTyped
    one (mark ",")) <|> semicolon g.dialect afterOperand

/-- What follows the name of a field: marks, a type and a value. -/
def fieldTail : Parser (List Tree) := do
  let sign ← g.ifTyped (one (mark "?" <|> mark "!"))
  let t ← g.ifTyped (one g.typeClause)
  let init ← maybe (do return [← mark "=", (← g.rule .expression).as .value])
  return sign ++ t ++ init ++ (← g.memberEnd (!init.isEmpty))

/-- A method or, in typed scripts, the signature of one. -/
def methodTail (head : List Tree) : Parser (List Tree) := do
  let optional ← g.ifTyped (one (mark "?"))
  ensure ((← peekOperator) == "(" || (← peekOperator) == "<")
  let signature ← g.callSignature
  if (← peekOperator) == "\x7b" then
    return [.node .plain .methodDefinition (head ++ optional ++ signature ++ [← g.rule .block])]
  else
    ensure g.isTyped
    return head ++ optional ++ signature ++ (← g.memberEnd false)

def classMember : Parser (List Tree) :=
  one (mark ";") <|> g.staticBlock <|> (do
    let decs ← g.decorators
    let mods ← g.many (modifier g.memberModifiers)
    (do
      ensure (g.isTyped && (← peekOperator) == "[")
      let index ← g.indexSignature
      return decs ++ mods ++ index ++ (← g.memberEnd false)) <|>
    (do
      let star ← maybe (one (mark "*"))
      let n ← g.rule .property
      let head := decs ++ mods ++ star ++ [n.as .name]
      g.methodTail head <|> (do
        ensure star.isEmpty
        return [.node .plain .fieldDefinition (decs ++ mods ++ [n] ++ (← g.fieldTail))])))

/-- What follows the word `class`. -/
def classRest : Parser Tree :=
  nodeOf .classBody (do
    let n ← maybe (do
      let w ← peekWord
      ensure (w ≠ "extends" && w ≠ "implements")
      one (name g.dialect))
    let types ← g.ifTyped (one (g.rule .typeParameters))
    let parents ← g.heritage
    let opening ← mark "\x7b"
    let members ← g.many g.classMember
    return n.map (·.as .name) ++ types ++ parents ++ opening :: members ++ [← mark "\x7d"])

end EnvCensus.Script.Grammar
