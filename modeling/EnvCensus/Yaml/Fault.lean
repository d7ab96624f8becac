/-! What can be wrong with a document.  A malformed document has a fault in one of the stages of
reading it, most often at a known place; a scalar whose form promises a value that does not exist
is a fault of another kind. -/
namespace EnvCensus.Yaml

/-- A place in a document: line and column, both from zero. -/
structure Mark where
  line : Nat
  column : Nat
  deriving DecidableEq, Repr, Inhabited

/-- The stage of reading that a fault belongs to: characters, tokens, nesting, references or
values. -/
inductive Stage where
  | characters
  | tokens
  | nesting
  | references
  | values
  deriving DecidableEq, Repr

/-- Scalars that have the form of a value without naming one. -/
inductive ScalarFault where
  | impossibleDate (text : String)
  | notMoment (text : String)
  | notNumber (text : String)
  | tooManyDigits (text : String)
  | notBoolean (text : String)
  | noCharacter (code : Nat)
  | tooLarge
  | empty
  deriving DecidableEq, Repr

inductive Fault where
  | malformed (stage : Stage) (mark : Option Mark)
  | scalar (fault : ScalarFault)
  deriving DecidableEq, Repr

end EnvCensus.Yaml
