import EnvCensus.Finding
import EnvCensus.Finding.Collation

/-! Merging.  Findings with one name become one finding: its references are the first of each
place, it is required or public if one of them is, its default is the first that is not empty, its
notes are all notes in order and its source is the one that takes precedence. -/
namespace EnvCensus

/-- The first element for each key, in order. -/
def distinctBy {α κ : Type} [BEq κ] (key : α → κ) : List α → List α
  | [] => []
  | x :: xs => x :: (distinctBy key xs).filter fun y => key y != key x

namespace FileRef

/-- The first reference for each place; what is said about the place does not count. -/
def dedupe (refs : List FileRef) : List FileRef := distinctBy key refs

end FileRef

namespace Finding

/-- The source that takes precedence among those of the findings. -/
def leadingSource (first : Finding) (all : List Finding) : Source :=
  (Source.precedence.find? fun s => all.any fun f => f.source == s).getD first.source

/-- The default if there is one and it is not empty. -/
def realDefault (f : Finding) : Option String := f.defaultValue.filter (· ≠ "")

/-- One finding for several of one name; a single one is kept as it is. -/
def merge : List Finding → Except Breach Finding
  | [] => .error .emptyMerge
  | [f] => .ok f
  | f :: rest =>
    let all := f :: rest
    if all.any fun g => g.name != f.name then .error .mixedMerge
    else
      make f.name (.source (leadingSource f all)) (FileRef.dedupe (all.flatMap (·.files)))
        (all.any (·.required)) (all.findSome? realDefault) (all.any (·.isPublic))
        (all.flatMap (·.notes))

/-- The findings by name, names in the order of their first occurrence. -/
def groups (fs : List Finding) : List (List Finding) :=
  (distinctBy id (fs.map (·.name))).map fun n => fs.filter fun f => f.name == n

/-- One finding for each name, in the order of names. -/
def mergeAll (fs : List Finding) : Except Breach (List Finding) := do
  let merged ← (groups fs).mapM merge
  return Collation.sortBy (·.name) merged

end Finding

end EnvCensus
