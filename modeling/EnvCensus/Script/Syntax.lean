import EnvCensus.Script.Grammar.Statements

/-! Parsing of scripts.  The grammar's rules are tied together here: a rule that refers to others
gets parsers with one unit of fuel less, and the fuel given at the start covers every text, since
only a bounded number of rules follow one another before a character is read. -/
namespace EnvCensus.Script

/-- The parser of a rule over a grammar that parses the rules it refers to. -/
def Grammar.parserOf (g : Grammar) : Rule → Parser Tree
  | .statement => g.statement
  | .block => g.block
  | .expression => g.expression
  | .sequence => g.sequence
  | .binary level => g.binary level
  | .operand => g.operand
  | .reference => g.reference
  | .callee => g.callee
  | .binding => g.binding
  | .target => g.target
  | .property => g.propertyName
  | .parameters => g.parameters
  | .classRest => g.classRest
  | .element => g.element
  | .typeExpression => g.typeExpression
  | .typeOperand => g.typeOperand
  | .typeArguments => g.typeArguments
  | .typeParameters => g.typeParameters
  | .objectType => g.objectType

/-- The parser of a rule, no more than `fuel` rules deep. -/
def parseRule (d : Dialect) : Nat → Rule → Parser Tree
  | 0, _ => failure
  | fuel + 1, r => Grammar.parserOf ⟨d, fuel, parseRule d fuel⟩ r

/-- Rules that may follow one another without reading a character. -/
def rulesPerCharacter : Nat := 32

/-- The tree of a whole script, if it has one. -/
def parse? (d : Dialect) (source : List Char) : Option Tree :=
  let fuel := rulesPerCharacter * (source.length + 1)
  ((Grammar.program ⟨d, fuel, parseRule d fuel⟩).run (Cursor.at ⟨0, 0⟩ source)).map (·.1)

end EnvCensus.Script
