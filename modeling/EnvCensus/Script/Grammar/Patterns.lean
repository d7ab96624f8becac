import EnvCensus.Script.Grammar.Types

/-! Patterns: what a declaration, a parameter or an assignment binds.  A binding pattern binds
names only; the pattern of an assignment may also hold members and subscripts. -/
namespace EnvCensus.Script.Grammar

open Script.Parser

variable (g : Grammar)

/-- An equals sign and the value that stands in for a missing one. -/
def initializer : Parser (List Tree) := do
  return [← mark "=", (← g.rule .expression).as .right]

/-- A pattern with a value that stands in for a missing one, if it has one. -/
def patternWithDefault (target : Parser Tree) : Parser Tree := do
  let left ← target
  match ← maybe g.initializer with
  | [] => return left
  | init => return .node .plain .assignmentPattern (left.as .left :: init)

def restPattern (target : Parser Tree) : Parser Tree :=
  nodeOf .restPattern (do return [← mark "...", ← target])

/-- A property of an object pattern: a name, a name with a default, a key with a pattern, or the
rest. -/
def patternProperty (target : Parser Tree) : Parser Tree :=
  (do ensure ((← peekOperator) == "..."); restPattern target) <|>
  nodeOf .pairPattern (do
    let key ← g.rule .property
    let colon ← mark ":"
    return [key.as .key, colon, (← g.patternWithDefault target).as .value]) <|>
  (do
    let n := (← name g.dialect).asKind .shorthandPattern
    match ← maybe g.initializer with
    | [] => return n
    | init => return .node .plain .objectAssignmentPattern (n.as .left :: init))

def objectPattern (target : Parser Tree) : Parser Tree :=
  nodeOf .objectPattern (do
    return (← mark "\x7b") :: (← g.listUpTo "\x7d" (one (g.patternProperty target))))

def arrayPattern (target : Parser Tree) : Parser Tree :=
  nodeOf .arrayPattern (do
    return (← mark "[") :: (← g.listUpTo "]" (one (
      (do ensure ((← peekOperator) == "..."); restPattern target) <|>
      g.patternWithDefault target))))

/-- A pattern whose leaves are read by `leaf` and whose branches by `target`. -/
def patternOf (target leaf : Parser Tree) : Parser Tree := do
  match ← peekOperator with
  | "\x7b" => g.objectPattern target
  | "[" => g.arrayPattern target
  | _ => leaf

/-- A pattern that binds names. -/
def binding : Parser Tree := g.patternOf (g.rule .binding) (name g.dialect)

/-- What may stand to the left of an assignment, patterns apart. -/
def isAssignable (t : Tree) : Bool :=
  [Kind.identifier, .memberExpression, .subscriptExpression, .parenthesized,
    .nonNullExpression].contains t.kind

/-- A pattern that an assignment may have on its left. -/
def target : Parser Tree := g.patternOf (g.rule .target) (do
  let t ← g.rule .reference
  ensure (isAssignable t)
  return t)

/-- Words that make a parameter of a constructor a property. -/
def parameterModifiers : List String :=
  ["public", "private", "protected", "readonly", "override", "accessor"]

def decoratorName : Parser (List Tree) := do
  let first ← word .identifier
  let more ← g.many (do return [← mark ".", ← word .propertyIdentifier])
  return first :: more

/-- Arguments of a call or a decorator. -/
def arguments : Parser Tree :=
  nodeOf .arguments (do
    return (← mark "(") :: (← g.listUpTo ")" (one (
      nodeOf .spread (do return [← mark "...", ← g.rule .expression]) <|> g.rule .expression))))

/-- An at sign and a name, a member or a call of one. -/
def decorator : Parser Tree :=
  nodeOf .decorator (do
    let at_ ← mark "@"
    let callee ← (do
      ensure (g.isTyped && (← peekOperator) == "(")
      return [← mark "(", ← g.rule .expression, ← mark ")"]) <|> g.decoratorName
    let types ← g.ifTyped (do
      ensure ((← peekOperator) == "<")
      one (g.rule .typeArguments))
    let call ← maybe (do
      ensure ((← peekOperator) == "(")
      one g.arguments)
    return at_ :: callee ++ types ++ call)

def decorators : Parser (List Tree) := g.many (do
  ensure ((← peekOperator) == "@")
  one g.decorator)

/-- A parameter of a typed function. -/
def typedParameter : Parser (List Tree) := do
  let decs ← g.decorators
  let mods ← g.many (modifier parameterModifiers)
  let dots ← maybe (one (mark "..."))
  let p ← (do ensure ((← peekWord) == "this"); word .identifier) <|> g.rule .binding
  let optional ← maybe (one (mark "?"))
  let t ← maybe (one g.typeClause)
  let init ← maybe g.initializer
  return decs ++ mods ++ dots ++ [p] ++ optional ++ t ++ init

def untypedParameter : Parser (List Tree) := one (
  (do ensure ((← peekOperator) == "..."); restPattern (g.rule .binding)) <|>
  g.patternWithDefault (g.rule .binding))

def parameters : Parser Tree :=
  nodeOf .parameters (do
    let opening ← mark "("
    let items ← maybe (do
      let ps ← g.commaList (if g.isTyped then g.typedParameter else g.untypedParameter)
      let comma ← maybe (one (mark ","))
      return ps ++ comma)
    return opening :: items ++ [← mark ")"])

end EnvCensus.Script.Grammar
