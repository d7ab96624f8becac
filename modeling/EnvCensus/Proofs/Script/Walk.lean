import EnvCensus.Proofs.Script

/-!
# The walk and the recursion

A walk keeps the trees that it has yet to visit on a stack, each with the trees
above it and the context around it. What it observes is what the recursion
observes that goes down from each tree to its named children, from left to
right: the visits of a stack are those of its members, one after the other, and
the visits of a tree are the tree itself and then those of its children. The
context on the stack is the one that the trees above give by themselves.
-/

namespace EnvCensus.Script

/-! ### Contexts -/

/-- The function has the name: its own, that of the variable it is declared as, or its key. -/
inductive DerivesName (t : Tree) : List Tree → String → Prop
  | own {above : List Tree} {n : Tree} (name : t.child? .name = some n) :
      DerivesName t above n.textString
  | declared {p n : Tree} {above : List Tree} (nameless : t.child? .name = none)
      (declarator : p.kind = .variableDeclarator) (name : p.child? .name = some n)
      (identifier : n.kind = .identifier) : DerivesName t (p :: above) n.textString
  | keyed {p k : Tree} {above : List Tree} (nameless : t.child? .name = none)
      (pair : p.kind = .pair) (key : p.child? .key = some k) :
      DerivesName t (p :: above) k.textString

/-- The tree is a function with a name to be told by. -/
def Tells (t : Tree) (above : List Tree) (name : String) : Prop :=
  isFunction t.kind = true ∧ DerivesName t above name ∧ name ≠ ""

/-- The context of a path of trees, the innermost first. -/
def contextAt : List Tree → Option String
  | [] => none
  | t :: above => contextIn t above (contextAt above)

mutual

/-- What a tree shows, and then what the trees below it do. -/
def Tree.observations (above : List Tree) (t : Tree) : Except EscapeFault (List Observation) := do
  let own ← observe t above (contextAt (t :: above))
  match t with
  | .token .. => return own
  | .node r k cs => return own ++ (← observationsAll (.node r k cs :: above) cs)

/-- What the named ones of some trees show, from left to right. -/
def observationsAll (above : List Tree) (cs : List Tree) : Except EscapeFault (List Observation) :=
  match cs with
  | [] => return []
  | c :: cs =>
    if c.isNamed then do
      let first ← c.observations above
      return first ++ (← observationsAll above cs)
    else observationsAll above cs

end

/-! ### Places in a tree -/

mutual

/-- The places in a tree: the tree itself first, and then the places in its named children. -/
def Tree.places : Tree → List (List Nat)
  | .token .. => [[]]
  | .node _ _ cs => [] :: placesFrom 0 cs

/-- The places in the named ones of some trees, which are numbered from `i` on. -/
def placesFrom (i : Nat) : List Tree → List (List Nat)
  | [] => []
  | c :: cs =>
    if c.isNamed then c.places.map (i :: ·) ++ placesFrom (i + 1) cs else placesFrom i cs

end

/-- The visits of a walk in their order: `walkStack` takes them from its stack one by one. -/
def visits (stack : List Visit) : List Visit :=
  match stack with
  | [] => []
  | v :: rest => v :: visits (v.below ++ rest)
termination_by pending stack
decreasing_by exact pending_below_lt v rest

theorem visits_append (stack later : List Visit) :
    visits (stack ++ later) = visits stack ++ visits later := by
  fun_induction visits stack with
  | case1 => rfl
  | case2 v rest ih => rw [List.cons_append, visits, ← List.append_assoc, ih, List.cons_append]

/-- What some visits show, one after the other. -/
def shownBy : List Visit → Except EscapeFault (List Observation)
  | [] => return []
  | v :: vs => do return (← v.shows) ++ (← shownBy vs)

theorem shownBy_append (vs ws : List Visit) :
    shownBy (vs ++ ws) = do return (← shownBy vs) ++ (← shownBy ws) := by
  induction vs with
  | nil =>
    cases h : shownBy ws <;> simp [h, shownBy]
  | cons v vs ih =>
    rw [List.cons_append, shownBy, shownBy, ih]
    cases v.shows with
    | error e => rfl
    | ok here =>
      cases shownBy vs with
      | error e => rfl
      | ok more => cases shownBy ws <;> simp [bind, Except.bind, pure, Except.pure]

/-- A walk gives what it has found, and then what its visits show. -/
theorem walkStack_eq (stack : List Visit) (found : List Observation) :
    walkStack stack found = (shownBy (visits stack)).map (found.reverse ++ ·) := by
  fun_induction walkStack stack found with
  | case1 found => simp [visits, shownBy, Except.map, pure, Except.pure]
  | case2 found v rest here shown ih =>
    rw [ih, visits, shownBy, shown]
    cases shownBy (visits (v.below ++ rest)) with
    | error e => rfl
    | ok later => simp [Except.map, bind, Except.bind, pure, Except.pure]
  | case3 found v rest e shown =>
    rw [visits, shownBy, shown]
    rfl

/-- A walk comes by the first of its trees, and then goes on with the others. -/
theorem walkStack_cons (v : Visit) (rest : List Visit) (found : List Observation) :
    walkStack (v :: rest) found =
      walkStack [v] [] >>= fun own => walkStack rest (own.reverse ++ found) := by
  have cut : visits (v :: rest) = visits [v] ++ visits rest := visits_append [v] rest
  rw [walkStack_eq, walkStack_eq [v], cut, shownBy_append]
  cases shownBy (visits [v]) with
  | error e => rfl
  | ok own =>
    have next : ((.ok own : Except EscapeFault _).map (List.reverse [] ++ ·)) = .ok own := rfl
    rw [next, ok_bind, ok_bind, walkStack_eq, List.reverse_append, List.reverse_reverse]
    cases shownBy (visits rest) with
    | error e => rfl
    | ok later => simp [Except.map, bind, Except.bind, pure, Except.pure]

/-- The trees of a visit: its own, and those above it. -/
def Visit.trail (v : Visit) : List Tree := v.tree :: v.above

end EnvCensus.Script
