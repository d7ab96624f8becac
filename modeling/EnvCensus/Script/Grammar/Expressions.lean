import EnvCensus.Script.Grammar.Elements
import EnvCensus.Script.Grammar.Patterns

/-! Expressions.  Binary operators are read by their level, members, subscripts and calls as
steps from what they apply to; an assignment, an arrow function and a `yield` may stand wherever
an operand may. -/
namespace EnvCensus.Script.Grammar

open Script.Parser

variable (g : Grammar)

def sequence : Parser Tree := do
  match ← g.commaList (one (g.rule .expression)) with
  | [t] => return t
  | ts => return .node .plain .sequence ts

/-- An expression in parentheses; in typed scripts its type may be given. -/
def parenthesized : Parser Tree :=
  nodeOf .parenthesized (do
    let opening ← mark "("
    let inner ← g.rule .sequence
    let t ← g.ifTyped (one g.typeClause)
    return opening :: inner :: t ++ [← mark ")"])

def propertyName : Parser Tree :=
  string <|> number <|> privateName <|> word .propertyIdentifier <|>
  nodeOf .computedName (do return [← mark "[", ← g.rule .expression, ← mark "]"])

/-- A template literal. -/
def template : Parser Tree :=
  nodeOf .templateString (do
    ensure ((← peek).head? == some '\x60')
    let opening ← take .mark 1
    let parts ← g.many (do
      let n := templateRun (← peekRaw)
      if n ≠ 0 then one (takeRaw .characters n)
      else one (nodeOf .templateSubstitution (do
        ensure ("$\x7b".toList.isPrefixOf (← peekRaw))
        let start ← takeRaw .mark 2
        return [start, ← g.rule .sequence, ← mark "\x7d"])))
    ensure ((← peekRaw).head? == some '\x60')
    return opening :: parts ++ [← takeRaw .mark 1])

/-- What makes a member a method of its own kind. -/
def methodModifiers : List String :=
  if g.isTyped then
    ["get", "set", "async", "static", "public", "private", "protected", "override", "readonly"]
  else ["get", "set", "async", "static"]

/-- A method: modifiers, a name, a signature and a body. -/
def method : Parser Tree :=
  nodeOf .methodDefinition (do
    let mods ← g.many (modifier g.methodModifiers)
    let star ← maybe (one (mark "*"))
    let n ← g.rule .property
    let optional ← g.ifTyped (one (mark "?"))
    ensure ((← peekOperator) == "(" || (← peekOperator) == "<")
    let signature ← g.callSignature
    return mods ++ star ++ [n.as .name] ++ optional ++ signature ++ [← g.rule .block])

def spread : Parser Tree :=
  nodeOf .spread (do return [← mark "...", ← g.rule .expression])

def objectMember : Parser (List Tree) := one (
  g.spread <|> g.method <|>
  nodeOf .pair (do
    let key ← g.rule .property
    let colon ← mark ":"
    return [key.as .key, colon, (← g.rule .expression).as .value]) <|>
  (do
    let w ← peekWord
    ensure (w ≠ "" && !g.dialect.reserves w)
    word .shorthandProperty))

def object : Parser Tree :=
  nodeOf .object (do return (← mark "\x7b") :: (← g.listUpTo "\x7d" g.objectMember))

def array : Parser Tree :=
  nodeOf .array (do
    return (← mark "[") :: (← g.listUpTo "]" (one (g.spread <|> g.rule .expression))))

/-- A pattern and the equals sign after it. -/
def assignedPattern : Parser Tree := do
  let p ← g.rule .target
  ensure ((← peekOperator) == "=")
  return p

/-- An object or array literal; where an equals sign follows, the pattern it stands for. -/
def literalOrPattern (literal : Parser Tree) : Parser Tree := fun c =>
  match literal c with
  | some (t, c') => if operatorOf c'.rest == "=" then g.assignedPattern c else some (t, c')
  | none =>
    (do
      let p ← g.rule .binding
      ensure ((← peekOperator) == "=")
      return p : Parser Tree) c

/-- The arrow of an arrow function and its body. -/
def arrowTail (head : List Tree) : Parser Tree := do
  let arrow ← mark "=>"
  let body ← if (← peekOperator) == "\x7b" then g.rule .block else g.rule .expression
  return .node .plain .arrowFunction (head ++ [arrow, body])

/-- An arrow function with a list of parameters. -/
def arrowFunction : Parser Tree := do
  let async ← maybe (do
    let w ← keyword "async"
    ensure ((← peekOperator) == "(" || (← peekOperator) == "<")
    return [w])
  let signature ← (do
    ensure ((← peekOperator) == "(" || g.isTyped)
    g.callSignature)
  g.arrowTail (async ++ signature)

/-- An arrow function with one bare parameter. -/
def bareArrow : Parser Tree := do
  let async ← maybe (do
    let w ← keyword "async"
    ensure ((← peekWord) ≠ "")
    return [w])
  let p ← name g.dialect
  ensure ((← peekOperator) == "=>")
  g.arrowTail (async ++ [p])

/-- A function expression; whether it is a generator shows in its kind. -/
def functionExpression : Parser Tree := do
  let async ← maybe (one (keyword "async"))
  let function ← keyword "function"
  let star ← maybe (one (mark "*"))
  let n ← maybe (one (name g.dialect))
  let signature ← g.callSignature
  let body ← g.rule .block
  let kind := if star.isEmpty then Kind.functionExpression else .generatorExpression
  return .node .plain kind
    (async ++ [function] ++ star ++ n.map (·.as .name) ++ signature ++ [body])

def classExpression : Parser Tree := do
  let decs ← g.decorators
  let abstract ← g.ifTyped (one (keyword "abstract"))
  let class_ ← keyword "class"
  let rest ← g.rule .classRest
  return .node .plain .classDefinition (decs ++ abstract ++ [class_, rest])

/-- What `import` and `new` name with a word after a dot. -/
def metaProperty (w field : String) : Parser Tree :=
  nodeOf .metaProperty (do return [← keyword w, ← mark ".", ← keyword field])

def newExpression : Parser Tree :=
  nodeOf .newExpression (do
    let new ← keyword "new"
    let callee ← g.rule .callee
    let types ← g.ifTyped (do
      let ts ← one (g.rule .typeArguments)
      ensure ((← peekOperator) == "(")
      return ts)
    let call ← maybe (do
      ensure ((← peekOperator) == "(")
      one g.arguments)
    return new :: callee :: types ++ call)

def yieldExpression : Parser Tree :=
  nodeOf .yieldExpression (do
    let yield_ ← keyword "yield"
    let star ← maybe (one (mark "*"))
    let value ← maybe (do
      ensure (!(← brokenLine))
      one (g.rule .expression))
    return yield_ :: star ++ value)

/-- What begins with a word. -/
def wordOperand (w : String) : Parser Tree :=
  match w with
  | "function" => g.functionExpression
  | "class" => g.classExpression
  | "new" => metaProperty "new" "target" <|> g.newExpression
  | "import" => metaProperty "import" "meta" <|> (do
      let t ← word .constant
      ensure ((← peekOperator) == "(")
      return t)
  | "this" | "super" | "null" | "true" | "false" => word .constant
  | "yield" => g.yieldExpression
  | "async" =>
    (do
      let f ← g.functionExpression
      return f) <|> g.arrowFunction <|> g.bareArrow <|> word .identifier
  | _ =>
    (do
      ensure (!g.dialect.excludes w)
      g.bareArrow <|> word .identifier)

/-- An operand without what may be applied to it. -/
def primary : Parser Tree := do
  let cs ← peek
  match cs with
  | [] => failure
  | c :: rest =>
    if c == '(' then g.arrowFunction <|> g.parenthesized
    else if c == '[' then g.literalOrPattern g.array
    else if c == '{' then g.literalOrPattern g.object
    else if c == '\x60' then g.template
    else if c == '"' || c == '\'' then string
    else if c.isDigit || (c == '.' && rest.head?.any Char.isDigit) then number
    else if c == '/' then regex
    else if c == '@' then g.classExpression
    else if c == '#' then privateName
    else if c == '<' then
      if g.isTyped then
        g.arrowFunction <|> (if g.dialect.hasElements then g.rule .element else failure)
      else g.rule .element
    else g.wordOperand (← peekWord)

/-- What may follow type arguments that no call follows. -/
def endsInstantiation : List String := [")", "]", ",", ";", ":", "\x7d", ""]

/-- One member, subscript or call applied to what stands before it. -/
def applied (calls : Bool) (t : Tree) : Parser Tree := do
  match ← peekOperator with
  | "." => do
    let dot ← mark "."
    let p ← privateName <|> word .propertyIdentifier
    return .node .plain .memberExpression [t.as .object, dot, p.as .property]
  | "?." => do
    let dot ← mark "?."
    match ← peekOperator with
    | "[" => do
      let opening ← mark "["
      let i ← g.rule .sequence
      return .node .plain .subscriptExpression
        [t.as .object, dot, opening, i.as .index, ← mark "]"]
    | "(" => do
      ensure calls
      return .node .plain .callExpression [t, dot, ← g.arguments]
    | "<" => do
      ensure (calls && g.isTyped)
      let types ← g.rule .typeArguments
      return .node .plain .callExpression [t, dot, types, ← g.arguments]
    | _ => do
      let p ← privateName <|> word .propertyIdentifier
      return .node .plain .memberExpression [t.as .object, dot, p.as .property]
  | "[" => do
    let opening ← mark "["
    let i ← g.rule .sequence
    return .node .plain .subscriptExpression [t.as .object, opening, i.as .index, ← mark "]"]
  | "(" => do
    ensure calls
    return .node .plain .callExpression [t, ← g.arguments]
  | "\x60" => do
    ensure calls
    return .node .plain .callExpression [t, ← g.template]
  | "!" => do
    ensure (g.isTyped && !(← brokenLine))
    return .node .plain .nonNullExpression [t, ← mark "!"]
  | "<" => do
    ensure (calls && g.isTyped)
    let types ← g.rule .typeArguments
    match ← peekOperator with
    | "(" => return .node .plain .callExpression [t, types, ← g.arguments]
    | "\x60" => return .node .plain .callExpression [t, types, ← g.template]
    | next =>
      ensure (endsInstantiation.contains next && (← peekWord) == "")
      return .node .plain .callExpression [t, types]
  | _ => failure

/-- An operand with everything applied to it. -/
def reference : Parser Tree := do g.iterate (g.applied true) (← g.primary)

/-- What `new` constructs: an operand with members and subscripts, but no call. -/
def callee : Parser Tree := do g.iterate (g.applied false) (← g.primary)

def assignmentOperators : List String :=
  ["=", "+=", "-=", "*=", "/=", "%=", "^=", "&=", "|=", ">>=", ">>>=", "<<=", "**=", "&&=",
   "||=", "??="]

/-- A reference, counted up or down or assigned to if such an operator follows it. -/
def assignable : Parser Tree := do
  let t ← g.rule .reference
  let op ← peekOperator
  if (op == "++" || op == "--") && !(← brokenLine) then
    return .node .plain .updateExpression [t, ← mark op]
  else if (isAssignable t && assignmentOperators.contains op) ||
      ((t.kind == .objectPattern || t.kind == .arrayPattern) && op == "=") then
    let o ← mark op
    return .node .plain .assignmentExpression
      [t.as .left, o.as .operator, (← g.rule .expression).as .right]
  else return t

def unaryOperators : List String := ["!", "~", "-", "+"]

/-- An operand with the operators before it. -/
def operand : Parser Tree := do
  let op ← peekOperator
  if unaryOperators.contains op then
    nodeOf .unaryExpression (do return [(← mark op).as .operator, ← g.rule .operand])
  else if op == "++" || op == "--" then
    nodeOf .updateExpression (do return [← mark op, ← g.rule .operand])
  else if op == "<" && g.isTyped && !g.dialect.hasElements then
    g.arrowFunction <|>
    nodeOf .typeAssertion (do
      return [← shortMark "<", ← g.rule .typeExpression, ← shortMark ">", ← g.rule .operand])
  else
    match ← peekWord with
    | "typeof" | "void" | "delete" =>
      nodeOf .unaryExpression (do
        return [(← word .mark).as .operator, ← g.rule .operand])
    | "await" =>
      nodeOf .awaitExpression (do return [← keyword "await", ← g.rule .operand]) <|>
        g.assignable
    | _ => g.assignable

/-- The level of a binary operator; higher levels bind closer. -/
def levelOf (op : String) : Option Nat :=
  match op with
  | "??" => some 1
  | "||" => some 2
  | "&&" => some 3
  | "|" => some 4
  | "^" => some 5
  | "&" => some 6
  | "==" | "!=" | "===" | "!==" => some 7
  | "<" | "<=" | ">" | ">=" | "in" | "instanceof" => some 8
  | "<<" | ">>" | ">>>" => some 9
  | "+" | "-" => some 10
  | "*" | "/" | "%" => some 11
  | "**" => some 12
  | _ => none

/-- The operator of the highest level groups to the right. -/
def rightLevel (op : String) (level : Nat) : Nat := if op == "**" then level else level + 1

/-- The claim that an operand has a type. -/
def asserted (level : Nat) (t : Tree) : Parser Tree := do
  ensure (g.isTyped && level ≤ 8 && !(← brokenLine))
  let as_ ← keywordIn ["as", "satisfies"]
  return .node .plain .typeAssertion [t, as_, ← g.rule .typeExpression]

/-- One more binary operator of at least the given level, and its right operand. -/
def operated (level : Nat) (t : Tree) : Parser Tree :=
  (do
    let op ← peekOperator
    let w ← peekWord
    let op := if w == "" then op else w
    match levelOf op with
    | some l =>
      ensure (level ≤ l)
      let o ← if w == "" then mark op else word .mark
      return .node .plain .binaryExpression
        [t.as .left, o.as .operator, (← g.rule (.binary (rightLevel op l))).as .right]
    | none => failure) <|> g.asserted level t

/-- Operands joined by operators of at least the given level. -/
def binary (level : Nat) : Parser Tree := do g.iterate (g.operated level) (← g.rule .operand)

/-- An expression without commas. -/
def expression : Parser Tree := do
  let t ← g.rule (.binary 1)
  if (← peekOperator) == "?" then
    (do
      let q ← mark "?"
      let yes ← g.rule .expression
      let colon ← mark ":"
      return .node .plain .ternaryExpression
        [t.as .condition, q, yes, colon, ← g.rule .expression]) <|> pure t
  else return t

end EnvCensus.Script.Grammar
