import EnvCensus.Yaml.Fault
import EnvCensus.Yaml.Schema

/-! Nodes of a document: scalars, sequences and mappings with their tags and places.  A reference
to a node is that node; a reference to a collection from inside itself is a loop, which has the
place of the collection. -/
namespace EnvCensus.Yaml

inductive Node where
  | scalar (tag : Tag) (text : String) (mark : Mark)
  | sequence (tag : Tag) (items : List Node) (mark : Mark)
  | mapping (tag : Tag) (entries : List (Node × Node)) (mark : Mark)
  | loop (isMapping : Bool) (mark : Mark)
  deriving Repr, Inhabited

namespace Node

def mark : Node → Mark
  | scalar _ _ m => m
  | sequence _ _ m => m
  | mapping _ _ m => m
  | loop _ m => m

def tag : Node → Tag
  | scalar t _ _ => t
  | sequence t _ _ => t
  | mapping t _ _ => t
  | loop isMapping _ => if isMapping then .map else .seq

mutual

/-- Whether there is a loop in a node. -/
def hasLoop : Node → Bool
  | scalar .. => false
  | loop .. => true
  | sequence _ items _ => itemsHaveLoop items
  | mapping _ entries _ => entriesHaveLoop entries

def itemsHaveLoop : List Node → Bool
  | [] => false
  | n :: ns => hasLoop n || itemsHaveLoop ns

def entriesHaveLoop : List (Node × Node) → Bool
  | [] => false
  | (k, v) :: es => hasLoop k || hasLoop v || entriesHaveLoop es

end

/-- A fault in the value of a node. -/
def fault (n : Node) : Fault := .malformed .values (some n.mark)

mutual

/-- The count of levels of a node. -/
def height : Node → Nat
  | scalar .. => 1
  | loop .. => 1
  | sequence _ items _ => heightOfItems items + 1
  | mapping _ entries _ => heightOfEntries entries + 1

def heightOfItems : List Node → Nat
  | [] => 0
  | n :: ns => max (height n) (heightOfItems ns)

def heightOfEntries : List (Node × Node) → Nat
  | [] => 0
  | (k, v) :: es => max (max (height k) (height v)) (heightOfEntries es)

end

end Node

end EnvCensus.Yaml
