import EnvCensus.Text.Case

/-! The order of variable names in results.  Names are compared without regard to case and with
the underscore before every digit and letter; names that differ in case alone have the lower-case
one first. -/
namespace EnvCensus.Collation

/-- A sort key: the folded name, then the name with its cases exchanged. -/
structure Key where
  folded : List Char
  swapped : List Char
  deriving DecidableEq, Repr

/-- The underscore takes the least code point. -/
def sinkUnderscore (c : Char) : Char := if c == '_' then '\x00' else c

def key (name : String) : Key :=
  ⟨(Text.fold name.toList).map sinkUnderscore, Text.swap name.toList⟩

/-- Texts in the order of their code points, a beginning before what it begins. -/
def textLe : List Char → List Char → Bool
  | [], _ => true
  | _ :: _, [] => false
  | a :: as, b :: bs => if a == b then textLe as bs else a < b

def Key.le (k l : Key) : Bool :=
  if k.folded == l.folded then textLe k.swapped l.swapped else textLe k.folded l.folded

/-- Sorts by name and keeps the order of elements with one key. -/
def sortBy {α : Type} (name : α → String) (xs : List α) : List α :=
  ((xs.map fun x => (key (name x), x)).mergeSort fun p q => p.1.le q.1).map (·.2)

end EnvCensus.Collation
