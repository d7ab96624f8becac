import EnvCensus.Name
import EnvCensus.Script.Guard
import EnvCensus.Source
import EnvCensus.Text.Utf8

/-! Accesses to the environment in a syntax tree.  `observe` says what a single tree shows:
members and subscripts of an environment object, and declarations that take one apart.  `walk`
visits the trees of a script in order, with a stack instead of recursion. -/
namespace EnvCensus.Script

structure Observation where
  name : String
  source : Source
  start : Point
  stop : Point
  guarded : Bool := false
  default : Option String := none
  context : Option String := none
  deriving DecidableEq, Repr

/-- The environment objects, by their text without spaces. -/
def environmentRoots : List (List Char × Source) :=
  [("process.env".toList, .process), ("import.meta.env".toList, .importMeta)]

/-- Which environment object a tree is, if it is one. -/
def environmentSource (t : Tree) : Option Source :=
  if t.kind = .memberExpression then environmentRoots.lookup (t.text.filter (· ≠ ' ')) else none

/-- An observation at a tree, unless the name cannot be a variable's. -/
def noted (name : String) (source : Source) (t : Tree) (g : Guard) (context : Option String) :
    List Observation :=
  if Name.isValid name then [⟨name, source, t.start, t.stop, g.guarded, g.default, context⟩]
  else []

/-- `object.NAME` -/
def observeMember (t : Tree) (above : List Tree) (context : Option String) :
    Except EscapeFault (List Observation) :=
  match (t.child? .object).bind environmentSource, t.child? .property with
  | some source, some p =>
    if p.kind = .propertyIdentifier then do
      let g ← guardOf t above
      return noted p.textString source t g context
    else .ok []
  | _, _ => .ok []

/-- `object["NAME"]` -/
def observeSubscript (t : Tree) (above : List Tree) (context : Option String) :
    Except EscapeFault (List Observation) :=
  match (t.child? .object).bind environmentSource with
  | some source => do
    match ← literalValue? (t.child? .index) with
    | some name => do
      let g ← guardOf t above
      return noted name source t g context
    | none => return []
  | none => .ok []

/-- The key of a pattern's property: the value of a string, else the text as it stands. -/
def keyName (key : Option Tree) : Except EscapeFault String :=
  match key with
  | some k =>
    if k.kind = .string then (literalValue k).map fun v => v.getD "" else .ok k.textString
  | none => .ok ""

/-- One property of a pattern that takes an environment object apart. -/
def observeProperty (source : Source) (context : Option String) (e : Tree) :
    Except EscapeFault (List Observation) :=
  match e.kind with
  | .shorthandPattern => .ok (noted e.textString source e .none context)
  | .objectAssignmentPattern => do
    let d ← literalValue? (e.child? .right)
    return noted (((e.child? .left).map Tree.textString).getD "") source e ⟨true, d⟩ context
  | .pairPattern => do
    let name ← keyName (e.child? .key)
    match e.child? .value with
    | some v =>
      if v.kind = .assignmentPattern then
        let d ← literalValue? (v.child? .right)
        return noted name source e ⟨true, d⟩ context
      else return noted name source e .none context
    | none => return noted name source e .none context
  | _ => .ok []

/-- `{ NAME, … } = object` -/
def observeDeclarator (t : Tree) (context : Option String) :
    Except EscapeFault (List Observation) :=
  match (t.child? .value).bind environmentSource, t.child? .name with
  | some source, some pattern =>
    if pattern.kind = .objectPattern then
      (pattern.namedChildren.mapM (observeProperty source context)).map List.flatten
    else .ok []
  | _, _ => .ok []

/-- What a single tree shows. -/
def observe (t : Tree) (above : List Tree) (context : Option String) :
    Except EscapeFault (List Observation) :=
  match t.kind with
  | .memberExpression => observeMember t above context
  | .subscriptExpression => observeSubscript t above context
  | .variableDeclarator => observeDeclarator t context
  | _ => .ok []

/-- Functions that may have a name of their own or of what they are bound to. -/
def isFunction (k : Kind) : Bool :=
  [Kind.functionDeclaration, .generatorDeclaration, .functionExpression, .arrowFunction,
    .methodDefinition].contains k

/-- The name of a function: its own, that of the variable it is declared as, or its key. -/
def functionName? (t : Tree) (above : List Tree) : Option String :=
  match t.child? .name with
  | some n => some n.textString
  | none =>
    match above with
    | p :: _ =>
      if p.kind = .variableDeclarator then
        ((p.child? .name).filter fun n => n.kind = .identifier).map Tree.textString
      else if p.kind = .pair then (p.child? .key).map Tree.textString
      else none
    | [] => none

/-- The context inside a tree: its name if it is a function with one, else the one around it. -/
def contextIn (t : Tree) (above : List Tree) (context : Option String) : Option String :=
  if isFunction t.kind then
    match (functionName? t above).filter (· ≠ "") with
    | some n => some ("Function: " ++ n)
    | none => context
  else context

/-- A tree to be visited, with the trees above it and the context around it. -/
structure Visit where
  tree : Tree
  above : List Tree
  context : Option String

namespace Visit

/-- What the visit shows, and its context. -/
def shows (v : Visit) : Except EscapeFault (List Observation) :=
  observe v.tree v.above (contextIn v.tree v.above v.context)

/-- The visits to the named trees below. -/
def below (v : Visit) : List Visit :=
  v.tree.namedChildren.map fun c => ⟨c, v.tree :: v.above, contextIn v.tree v.above v.context⟩

end Visit

mutual

/-- The number of trees in a tree, itself included. -/
def Tree.count : Tree → Nat
  | .token .. => 1
  | .node _ _ cs => 1 + countAll cs

def countAll : List Tree → Nat
  | [] => 0
  | c :: cs => c.count + countAll cs

end

theorem countAll_append (cs ds : List Tree) :
    countAll (cs ++ ds) = countAll cs + countAll ds := by
  induction cs with
  | nil => simp only [List.nil_append, countAll, Nat.zero_add]
  | cons c cs ih => simp only [List.cons_append, countAll, ih, Nat.add_assoc]

theorem countAll_filter_le (p : Tree → Bool) (cs : List Tree) :
    countAll (cs.filter p) ≤ countAll cs := by
  induction cs with
  | nil => exact Nat.le_refl _
  | cons c cs ih =>
    rw [List.filter_cons]
    split <;> simp only [countAll] <;> omega

/-- The number of trees that a stack of visits still has to look at. -/
def pending (stack : List Visit) : Nat := countAll (stack.map Visit.tree)

theorem countAll_below_lt (v : Visit) : countAll (v.below.map Visit.tree) < v.tree.count := by
  have h : v.below.map Visit.tree = v.tree.namedChildren := by
    simp only [Visit.below, List.map_map, Function.comp_def, List.map_id']
  rw [h]
  cases v.tree with
  | token r k g x a b =>
    simp only [Tree.namedChildren, Tree.children, List.filter_nil, countAll, Tree.count]
    omega
  | node r k cs =>
    have := countAll_filter_le Tree.isNamed cs
    simp only [Tree.namedChildren, Tree.children, Tree.count]
    omega

theorem pending_below_lt (v : Visit) (rest : List Visit) :
    pending (v.below ++ rest) < pending (v :: rest) := by
  have := countAll_below_lt v
  simp only [pending, List.map_append, countAll_append, List.map_cons, countAll]
  omega

/-- Visits the trees on the stack, and before the rest of the stack the trees below each; `found`
are the observations so far, latest first. -/
def walkStack (stack : List Visit) (found : List Observation) :
    Except EscapeFault (List Observation) :=
  match stack with
  | [] => .ok found.reverse
  | v :: rest =>
    match v.shows with
    | .ok here => walkStack (v.below ++ rest) (here.reverse ++ found)
    | .error e => .error e
termination_by pending stack
decreasing_by exact pending_below_lt v rest

/-- The observations of a script, in the order of its text. -/
def walk (root : Tree) : Except EscapeFault (List Observation) := walkStack [⟨root, [], none⟩] []

/-- Lines of a source by their number, each as the bytes between two line feeds. -/
abbrev LineTable := Array (List UInt8)

def lineTable (source : List Char) : LineTable := ((Text.encode source).splitOn 0x0A).toArray

/-- Line and column of a place, counted from one, columns in characters: those that the bytes of
the line before the place are read as. -/
def LineTable.position (lines : LineTable) (p : Point) : Nat × Nat :=
  (p.row + 1, (Text.decodeLossy ((lines.getD p.row []).take p.column)).length + 1)

end EnvCensus.Script
