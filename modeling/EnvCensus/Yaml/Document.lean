import EnvCensus.Yaml.Node.Grammar

/-! Values of documents.  A mapping takes over the entries of the mappings that a merge key names;
its own entries replace them.  Faults are looked for level by level, so that of two the shallower
one is reported.  A loop leads to the collection with its place among the `collections` that have
names; where that one is not around it, the loop stands for all of it. -/
namespace EnvCensus.Yaml

namespace Node

/-- The text of a scalar, or of the default value of a mapping that stands for one. -/
def scalarText : Node → Except Fault String
  | scalar _ text _ => .ok text
  | mapping t entries m =>
    match entries.find? fun e => e.1.tag == .value with
    | some (_, scalar _ text _) => .ok text
    | some (_, v) => .error v.fault
    | none => .error (mapping t entries m).fault
  | n => .error n.fault

def convert {α : Type} (n : Node) (read : String → Except ScalarFault α) : Except Fault α := do
  (read (← n.scalarText)).mapError Fault.scalar

/-- The value of a node whose tag is one of a scalar. -/
def scalarValue (n : Node) : Except Fault Value :=
  match n.tag with
  | .null => n.scalarText.map fun _ => .null
  | .bool => (n.convert Schema.boolValue).map .bool
  | .int => (n.convert Schema.intValue).map .int
  | .float => (n.convert Schema.floatValue).map .float
  | .timestamp => n.convert Schema.momentValue
  | .str => n.scalarText.map .text
  | .binary => do
    match Schema.bytes? (← n.scalarText) with
    | some bs => return .bytes bs
    | none => throw n.fault
  | _ => .error n.fault

def isCollection (n : Node) : Bool := [Tag.seq, .map, .set, .omap, .pairs].contains n.tag

/-- The collection that a loop leads to; any other node is itself. -/
def resolved (collections : List Node) : Node → Node
  | loop isMapping m => (collections.find? fun n => n.mark = m).getD (loop isMapping m)
  | n => n

section

variable (named : Mark → Except Fault (List (Node × Node)))

mutual

/-- The entries of a mapping, those that its merge keys name first; `named` are the entries of the
collection that a loop leads to. -/
def mergedEntries : Node → Except Fault (List (Node × Node))
  | mapping _ entries _ => do
    let (merged, own) ← splitEntries entries
    return merged ++ own
  | _ => .ok []

/-- The entries that merge keys name, and the other ones. -/
def splitEntries : List (Node × Node) → Except Fault (List (Node × Node) × List (Node × Node))
  | [] => .ok ([], [])
  | (k, v) :: rest =>
    if k.tag == .merge then do
      let taken ← namedEntries v
      let (merged, own) ← splitEntries rest
      return (taken ++ merged, own)
    else do
      let (merged, own) ← splitEntries rest
      return (merged, (k, v) :: own)

/-- The entries of a mapping, or of the mappings of a sequence, the last one's first. -/
def namedEntries : Node → Except Fault (List (Node × Node))
  | mapping _ entries _ => do
    let (merged, own) ← splitEntries entries
    return merged ++ own
  | sequence _ items _ => return (← itemEntries items).reverse.flatten
  | loop _ m => named m
  | n => .error n.fault

def itemEntries : List Node → Except Fault (List (List (Node × Node)))
  | [] => .ok []
  | mapping _ entries _ :: rest => do
    let (merged, own) ← splitEntries entries
    return (merged ++ own) :: (← itemEntries rest)
  | loop true m :: rest => do return (← named m) :: (← itemEntries rest)
  | n :: _ => .error n.fault

end

end

/-- The entries of a mapping that stand in it under keys of its own. -/
def ownEntries : Node → List (Node × Node)
  | mapping _ entries _ => entries.filter fun e => e.1.tag != .merge
  | _ => []

/-- The entries of a collection with what its merge keys name, through at most `fuel` loops. -/
def entriesAt (collections : List Node) : Nat → Mark → Except Fault (List (Node × Node))
  | fuel, m =>
    match collections.find? (fun n => n.mark = m), fuel with
    | some n, fuel + 1 => namedEntries (entriesAt collections fuel) n
    | some n, 0 => .ok n.ownEntries
    | none, _ => .ok []

/-- The entries behind a loop in the merge keys of a mapping; what is inside itself there adds its
own entries. -/
def behindLoop (collections : List Node) : Mark → Except Fault (List (Node × Node)) :=
  entriesAt collections collections.length

/-- Whether a node can be a key; a mark for a default value is one. -/
def checkKey (k : Node) : Except Fault Unit :=
  if k.tag == .value then .ok ()
  else if k.isCollection then .error k.fault
  else k.scalarValue.map fun _ => ()

/-- Checks a node as far as its own level goes. -/
def checkShallow (n : Node) : Except Fault Unit :=
  if n.isCollection then .ok () else n.scalarValue.map fun _ => ()

/-- The one entry of each item of an ordered mapping. -/
def pairOf (collections : List Node) (n : Node) : Except Fault (Node × Node) :=
  match n.resolved collections with
  | mapping _ [e] _ => .ok e
  | _ => .error n.fault

/-- The nodes inside a collection, after a check of the next level; what stands behind a loop is
checked around it. -/
def inner (collections : List Node) (n : Node) : Except Fault (List Node) :=
  match n, n.tag with
  | loop .., _ => .ok []
  | sequence _ items _, .seq => do
    items.forM checkShallow
    return items
  | sequence _ items _, .omap => pairs items
  | sequence _ items _, .pairs => pairs items
  | mapping .., .map => entries n
  | mapping .., .set => entries n
  | _, _ => .error n.fault
where
  pairs (items : List Node) : Except Fault (List Node) := do
    let nodes ← items.mapM fun i => do
      let (k, v) ← pairOf collections i
      checkShallow k
      checkShallow v
      return [k, v]
    return nodes.flatten
  entries (n : Node) : Except Fault (List Node) := do
    let es ← n.mergedEntries fun m => (behindLoop collections m).map fun _ => []
    es.forM fun (k, v) => do
      checkKey k
      checkShallow v
    return es.map (·.2)

/-- Checks the collections among the nodes of one level, and at most `fuel` levels below. -/
def checkLevels (collections : List Node) : Nat → List Node → Except Fault Unit
  | 0, _ => .ok ()
  | fuel + 1, level => do
    let below ← (level.filter isCollection).mapM (inner collections)
    if below.isEmpty then return
    checkLevels collections fuel below.flatten

def keyValue (k : Node) : Value :=
  match k.tag, k with
  | .value, scalar _ text _ => .text text
  | _, _ => k.scalarValue.toOption.getD .null

/-- Which collection the value of a node is, or which pair. -/
def origin (n : Node) (isPair : Bool) : Value.Origin := ⟨n.mark.line, n.mark.column, isPair⟩

/-- The value of a collection, given what to make of it inside itself; one that has a loop in it may
hold itself. -/
def tied (n : Node) (isPair : Bool) (around : List Value.Origin)
    (make : List Value.Origin → Value) : Value :=
  let o := n.origin isPair
  if around.contains o then .loop o
  else if n.hasLoop then .knot o (make (o :: around))
  else make (o :: around)

/-- The value of an item of an ordered mapping, given those of the nodes in it. -/
def pairValue (collections : List Node) (value : List Value.Origin → Node → Value)
    (around : List Value.Origin) (n : Node) : Value :=
  match pairOf collections n with
  | .ok (k, v) =>
    tied (n.resolved collections) true around fun inside => .tuple [value inside k, value inside v]
  | .error _ => .null

/-- The entries of a mapping's value, given those of the nodes in it; a later entry with the key of
an earlier one replaces its value. -/
def entryValues (collections : List Node) (value : Node → Value) (n : Node) :
    List (Value × Value) :=
  ((n.mergedEntries (behindLoop collections)).toOption.getD []).foldl
    (fun es (k, v) => Value.insert es (keyValue k) (value v)) []

/-- The value of a node of at most `fuel` levels inside the collections `around` it; a fault has no
value. -/
def value (collections : List Node) : Nat → List Value.Origin → Node → Value
  | 0, _, _ => .null
  | fuel + 1, around, n =>
    let inside := value collections fuel
    let pair := pairValue collections inside
    match n, n.tag with
    | loop .., _ =>
      if around.contains (n.origin false) then .loop (n.origin false)
      else inside around (n.resolved collections)
    | sequence _ items _, .seq => n.tied false around fun o => .list (items.map (inside o))
    | sequence _ items _, .omap => n.tied false around fun o => .list (items.map (pair o))
    | sequence _ items _, .pairs => n.tied false around fun o => .list (items.map (pair o))
    | mapping .., .set =>
      n.tied false around fun o => .set ((entryValues collections (inside o) n).map (·.1))
    | mapping .., .map => n.tied false around fun o => .map (entryValues collections (inside o) n)
    | _, _ => n.scalarValue.toOption.getD .null

/-- The value of a document's node. -/
def load (collections : List Node) (n : Node) : Except Fault Value := do
  n.checkShallow
  checkLevels collections n.height [n]
  return n.value collections ((collections.length + 1) * (n.height + 1)) []

end Node

/-- Whether a document may hold a character. -/
def isAdmitted (c : Char) : Bool :=
  let n := c.toNat
  n == 0x9 || n == 0xA || n == 0xD || (0x20 ≤ n && n ≤ 0x7E) || n == 0x85 ||
    (0xA0 ≤ n && n ≤ 0xD7FF) || (0xE000 ≤ n && n ≤ 0xFFFD) || 0x10000 ≤ n

/-- The value of a document; an empty one is null. -/
def load (text : String) : Except Fault Value := do
  let cs := text.toList
  if !cs.all isAdmitted then throw (.malformed .characters none)
  match ← Node.ofText? cs with
  | none => return .null
  | some (n, collections) => n.load collections

end EnvCensus.Yaml
