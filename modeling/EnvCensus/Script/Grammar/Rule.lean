import EnvCensus.Script.Token

/-! The open grammar.  A rule names a construct that other constructs refer to; a grammar value
holds a dialect and a parser for every rule, so that each construct is parsed without recursion
in its own module and one knot ties them all. -/
namespace EnvCensus.Script

inductive Rule where
  | statement
  | block
  | expression
  | sequence
  | binary (level : Nat)
  | operand
  | reference
  | callee
  | binding
  | target
  | property
  | parameters
  | classRest
  | element
  | typeExpression
  | typeOperand
  | typeArguments
  | typeParameters
  | objectType
  deriving DecidableEq, Repr

/-- A dialect, a bound for repetitions and the parsers of all rules. -/
structure Grammar where
  dialect : Dialect
  bound : Nat
  rule : Rule → Parser Tree

namespace Grammar

open Script.Parser

variable (g : Grammar)

def isTyped : Bool := g.dialect.isTyped

/-- Zero or more times. -/
def many (p : Parser (List Tree)) : Parser (List Tree) := Parser.many g.bound p

/-- As many steps as succeed, each from the tree before it. -/
def iterate (step : Tree → Parser Tree) (t : Tree) : Parser Tree := steps g.bound t
where
  steps : Nat → Tree → Parser Tree
    | 0, t => fun c => some (t, c)
    | n + 1, t => fun c =>
      match step t c with
      | some (t', c') => steps n t' c'
      | none => some (t, c)

/-- Only in typed dialects; elsewhere nothing is read. -/
def ifTyped (p : Parser (List Tree)) : Parser (List Tree) :=
  if g.isTyped then maybe p else pure []

/-- Items between commas, of which any may be missing, up to the closing mark. -/
def listUpTo (close : String) (item : Parser (List Tree)) : Parser (List Tree) := do
  let body ← g.many (do
    ensure ((← peekOperator) ≠ close)
    one (mark ",") <|> (do
      let x ← item
      let next ← peekOperator
      ensure (next == "," || next == close)
      return x))
  return body ++ [← mark close]

/-- One or more items between commas. -/
def commaList (item : Parser (List Tree)) : Parser (List Tree) := do
  let first ← item
  let more ← g.many (do
    let comma ← mark ","
    return comma :: (← item))
  return first ++ more

end Grammar

end EnvCensus.Script
