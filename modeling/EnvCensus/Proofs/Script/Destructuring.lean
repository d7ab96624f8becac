import EnvCensus.Proofs.Script.Accesses
import EnvCensus.Proofs.Script.Walk

/-!
# Destructuring and direct access

A declaration that takes an environment object apart takes a variable with each
element of its pattern, and an element may have a default. What a walk observes
depends on the variable and on the value that stands in for it alone, not on the
form: a bare element shows the same as an access outside any guard, and an
element with a default the same as an access to the left of a fallback.
-/

namespace EnvCensus.Script

variable {source : Source}

/-! ### Patterns -/

/-- The key of a property says the name. -/
inductive Key (name : String) : Tree → Prop
  | plain (s : Spot) : Key name (s.token .key .propertyIdentifier name.toList)
  | quoted (s : Spot) {q : Char} (quote : q ∈ ['"', '\'']) :
      Key name (s.token .key .string (q :: name.toList ++ [q]))

/-- The property of a pattern takes the variable: `NAME`, `NAME = value`, `KEY: alias` or
`KEY: alias = value`, where the alias may also be a pattern. -/
inductive ElementOf (x : Taking) : Tree → Prop
  | bare (none : x.fallback = none) (s : Spot) :
      ElementOf x (s.token .plain .shorthandPattern x.name.toList)
  | defaulted {e : Tree} (default : x.fallback = some e) (n q : Spot) :
      ElementOf x (.node .plain .objectAssignmentPattern
        [n.token .left .shorthandPattern x.name.toList, q.token .plain .mark "=".toList, e])
  | renamed (none : x.fallback = none) {k v : Tree} (key : Key x.name k) (c : Spot)
      (value : v.role = .value) (plain : v.kind ≠ .assignmentPattern) (free : v.Free) :
      ElementOf x (.node .plain .pairPattern [k, c.token .plain .mark ":".toList, v])
  | renamedDefaulted {e : Tree} (default : x.fallback = some e) {k v : Tree} (key : Key x.name k)
      (c q : Spot) (left : v.role = .left) (free : v.Free) :
      ElementOf x (.node .plain .pairPattern [k, c.token .plain .mark ":".toList,
        .node .value .assignmentPattern [v, q.token .plain .mark "=".toList, e]])

theorem Key.keyName_eq {x : Taking} {k : Tree} (key : Key x.name k) :
    keyName (some k) = .ok x.name := by
  cases key with
  | plain s =>
    rw [keyName, Spot.kind_token, if_neg (by decide), x.textString_token]
  | quoted s quote =>
    rw [keyName, Spot.kind_token, if_pos rfl, x.literalValue_quoted]
    rfl

theorem Key.role_eq {name : String} {k : Tree} (key : Key name k) : k.role = .key := by
  cases key <;> rfl

theorem Key.free {name : String} {k : Tree} (key : Key name k) : k.Free := by
  cases key <;> exact Spot.token_free ..

/-- An element of a pattern shows its variable. -/
theorem ElementOf.observe_eq {x : Taking} {t : Tree} (h : ElementOf x t) (source : Source)
    (context : Option String) : observeProperty source context t = x.shown source context t := by
  cases h with
  | bare none s =>
    rw [observeProperty, Taking.shown_bare none]
    simp only [Spot.kind_token, x.textString_token, x.noted_eq]
    rfl
  | @defaulted e default n q =>
    let t := Tree.node .plain .objectAssignmentPattern
      [n.token .left .shorthandPattern x.name.toList, q.token .plain .mark "=".toList, e]
    have hleft : t.child? .left = some (n.token .left .shorthandPattern x.name.toList) := by
      simp [t]
    have hright : t.child? .right = some e := by
      simp [t, x.right e default]
    rw [observeProperty, Tree.kind_node, hleft, hright, Taking.shown_default default]
    simp only [literalValue?, Option.map_some, Option.getD_some, x.textString_token, x.noted_eq]
    cases literalValue e <;> rfl
  | @renamed none k v key c value plain free =>
    let t := Tree.node .plain .pairPattern [k, c.token .plain .mark ":".toList, v]
    have hkey : t.child? .key = some k := by
      simp [t, key.role_eq]
    have hvalue : t.child? .value = some v := by
      simp [t, key.role_eq, value]
    rw [observeProperty, Tree.kind_node, hkey, hvalue, Taking.shown_bare none]
    simp only [key.keyName_eq, ok_bind, if_neg plain, x.noted_eq]
    rfl
  | @renamedDefaulted e default k v key c q left free =>
    let v' := Tree.node .value .assignmentPattern [v, q.token .plain .mark "=".toList, e]
    let t := Tree.node .plain .pairPattern [k, c.token .plain .mark ":".toList, v']
    have hkey : t.child? .key = some k := by
      simp [t, key.role_eq]
    have hvalue : t.child? .value = some v' := by
      simp [t, v', key.role_eq]
    have hright : v'.child? .right = some e := by
      simp [v', left, x.right e default]
    rw [observeProperty, Tree.kind_node, hkey, hvalue, Taking.shown_default default]
    simp only [key.keyName_eq, ok_bind, hright, literalValue?, x.noted_eq]
    cases literalValue e <;> rfl

theorem ElementOf.free {x : Taking} {t : Tree} (h : ElementOf x t) : t.Free := by
  cases h with
  | bare none s => exact s.token_free _ _ _
  | defaulted default n q =>
    exact Tree.free_node (by decide) (named_free (by simp [Spot.token_free, x.free _ default]))
  | renamed none key c value plain free =>
    exact Tree.free_node (by decide) (named_free (by simp [Spot.token_free, key.free, free]))
  | @renamedDefaulted e default k v key c q left free =>
    have value : (Tree.node .value .assignmentPattern
        [v, q.token .plain .mark "=".toList, e]).Free :=
      Tree.free_node (by decide) (named_free (by simp [Spot.token_free, free, x.free _ default]))
    exact Tree.free_node (by decide) (named_free (by simpa [Spot.token_free, key.free] using value))

/-- A part of a pattern: an element that takes a variable, or the rest, which takes none. -/
inductive Part : Option Taking → Tree → Prop
  | element {x : Taking} {t : Tree} (h : ElementOf x t) : Part (some x) t
  | rest (s : Spot) {v : Tree} (free : v.Free) :
      Part none (.node .plain .restPattern [s.token .plain .mark "...".toList, v])

/-- What a walk is to show of a part of a pattern. -/
def partShown (source : Source) (context : Option String) (part : Option Taking × Tree) :
    Except EscapeFault (List Observation) :=
  match part.1 with
  | some x => x.shown source context part.2
  | none => .ok []

/-- What a walk is to show of parts that follow one another. -/
def partsShown (source : Source) (context : Option String) (parts : List (Option Taking × Tree)) :
    Except EscapeFault (List Observation) :=
  (parts.mapM (partShown source context)).map List.flatten

theorem partsShown_append_cons (source : Source) (context : Option String) (x : Taking) (t : Tree)
    (before after : List (Option Taking × Tree)) :
    partsShown source context (before ++ (some x, t) :: after) = do
      let front ← partsShown source context before
      let own ← x.shown source context t
      return front ++ own ++ (← partsShown source context after) := by
  have own : partShown source context (some x, t) = x.shown source context t := rfl
  rw [partsShown, List.mapM_append, List.mapM_cons, own, partsShown, partsShown]
  cases before.mapM (partShown source context) with
  | error e => rfl
  | ok front =>
    cases x.shown source context t with
    | error e => rfl
    | ok here =>
      cases after.mapM (partShown source context) with
      | error e => rfl
      | ok rest => simp [Except.map, bind, Except.bind, pure, Except.pure]

variable {part : Option Taking × Tree} {parts : List (Option Taking × Tree)}

theorem Part.observe_eq (h : Part part.1 part.2) (source : Source) (context : Option String) :
    observeProperty source context part.2 = partShown source context part := by
  obtain ⟨x, t⟩ := part
  cases h with
  | element h => exact h.observe_eq source context
  | rest s free => rfl

theorem Part.free (h : Part part.1 part.2) : part.2.Free := by
  obtain ⟨x, t⟩ := part
  cases h with
  | element h => exact h.free
  | rest s free =>
    exact Tree.free_node (by decide) (named_free (by simp [Spot.token_free, free]))

theorem mapM_observeProperty (each : ∀ part ∈ parts, Part part.1 part.2) (source : Source)
    (context : Option String) : (parts.map Prod.snd).mapM (observeProperty source context) =
      parts.mapM (partShown source context) := by
  induction parts with
  | nil => rfl
  | cons part parts ih =>
    obtain ⟨first, others⟩ := List.forall_mem_cons.mp each
    rw [List.map_cons, List.mapM_cons, List.mapM_cons, first.observe_eq, ih others]

/-- The tree declares what the parts of its pattern take from an environment object; commas and
braces stand between them. -/
inductive Declares (source : Source) (parts : List (Option Taking × Tree)) : Tree → Prop
  | mk {items : List Tree} {o : Tree} (r : Role) (s : Spot)
      (object : EnvironmentObject .value source o)
      (named : items.filter Tree.isNamed = parts.map Prod.snd)
      (each : ∀ part ∈ parts, Part part.1 part.2) :
      Declares source parts (.node r .variableDeclarator
        [.node .name .objectPattern items, s.token .plain .mark "=".toList, o])

/-- A declaration shows what its parts do, one after the other. -/
theorem walkStack_declaration {t : Tree} (h : Declares source parts t) (above : List Tree)
    (context : Option String) :
    walkStack [⟨t, above, context⟩] [] = partsShown source context parts := by
  cases h with
  | @mk items o r s object named each =>
    let t := Tree.node r .variableDeclarator
      [.node .name .objectPattern items, s.token .plain .mark "=".toList, o]
    -- all observations are made at the declarator: the visits below it add nothing
    have pattern : (Tree.node .name .objectPattern items).Free := by
      refine Tree.free_node (by decide) ?_
      rw [named]
      intro c hc
      obtain ⟨part, hpart, rfl⟩ := List.mem_map.mp hc
      exact (each part hpart).free
    have below : ∀ c ∈ t.namedChildren, c.Free := by
      refine named_free ?_
      simp [t, Tree.children, pattern, Spot.token_free, object.free]
    have hvalue : t.child? .value = some o := by
      simp [t, object.role_eq]
    have hname : t.child? .name = some (.node .name .objectPattern items) := by
      simp [t]
    have shows : Visit.shows ⟨t, above, context⟩ = observeDeclarator t context := rfl
    rw [walkStack_first below (by simp), shows, observeDeclarator, hvalue, hname, Option.bind_some,
      object.source_eq]
    simp only [Tree.kind_node, if_true, Tree.namedChildren, Tree.children, named,
      mapM_observeProperty each, partsShown]

/-! ### Defaults -/

/-- What the value that stands in for a missing variable is worth: the decoded text of a string or
of a template without substitutions, and nothing for every other value. -/
inductive DefaultOf (e : Tree) : Option String → Prop
  | decoded {cs : List Char} (literal : isTextLiteral e = true)
      (value : decodeEscapes (innerText e.text) = .ok cs) : DefaultOf e (some (String.ofList cs))
  | other (h : isTextLiteral e = false) : DefaultOf e none

/-- How the variable is guarded where it is taken. -/
inductive Taking.Guarded (x : Taking) : Guard → Prop
  | bare (none : x.fallback = none) : Guarded x ⟨false, .none⟩
  | defaulted {e : Tree} {d : Option String} (default : x.fallback = some e)
      (value : DefaultOf e d) : Guarded x ⟨true, d⟩

/-- The value that stands in for the variable is a text with an escape by a code beyond the last
code point. -/
def Taking.Beyond (x : Taking) (fault : EscapeFault) : Prop :=
  ∃ e, x.fallback = some e ∧ isTextLiteral e = true ∧
    decodeEscapes (innerText e.text) = .error fault ∧ fault.Beyond

/-- The variable has a guard, or a value that cannot be decoded. -/
theorem Taking.guarded_or_beyond (x : Taking) :
    (∃ g, x.Guarded g) ∨ ∃ fault, x.Beyond fault := by
  cases default : x.fallback with
  | none => exact Or.inl ⟨_, .bare default⟩
  | some e =>
    cases literal : isTextLiteral e with
    | false => exact Or.inl ⟨_, .defaulted default (.other literal)⟩
    | true =>
      cases decoded : decodeEscapes (innerText e.text) with
      | ok cs => exact Or.inl ⟨_, .defaulted default (.decoded literal decoded)⟩
      | error fault =>
        have reads := decodeFrom_reads 0 (innerText e.text)
        exact Or.inr ⟨fault, e, default, literal, decoded, reads.failure decoded⟩

theorem literalValue_of_defaultOf {e : Tree} {d : Option String} (value : DefaultOf e d) :
    literalValue e = .ok d := by
  cases value with
  | decoded literal value =>
    rw [literalValue, if_pos literal, value]
    rfl
  | other h =>
    rw [literalValue, h]
    rfl

/-- A variable with a guard shows one observation. -/
theorem Taking.shown_of_guarded {x : Taking} {g : Guard} (guarded : x.Guarded g) (source : Source)
    (context : Option String) (t : Tree) : x.shown source context t =
      .ok [⟨x.name, source, t.start, t.stop, g.guarded, g.default, context⟩] := by
  cases guarded with
  | bare none => exact shown_bare none source context t
  | defaulted default value =>
    rw [shown_default default, literalValue_of_defaultOf value]
    rfl

theorem Taking.shown_of_beyond {x : Taking} {fault : EscapeFault} (beyond : x.Beyond fault)
    (source : Source) (context : Option String) (t : Tree) :
    x.shown source context t = .error fault := by
  obtain ⟨e, default, literal, decoded, -⟩ := beyond
  rw [shown_default default, literalValue, if_pos literal, decoded]
  rfl

/-! ### Agreement -/

/-- Wherever a walk comes by the visit, this is what it observes in the tree. -/
def Observes (v : Visit) (shown : Except EscapeFault (List Observation)) : Prop :=
  ∀ rest found, walkStack (v :: rest) found =
    shown >>= fun own => walkStack rest (own.reverse ++ found)

theorem observes_of_walkStack {v : Visit} {shown : Except EscapeFault (List Observation)}
    (h : walkStack [v] [] = shown) : Observes v shown := by
  intro rest found
  rw [walkStack_cons, h]

/-- In every form in which a variable is taken, a walk observes the same at the tree that takes it:
at an access outside any guard or to the left of a fallback, and at an element of a declaration,
which comes between the other parts of the pattern. -/
structure Taking.ShownIn (x : Taking)
    (own : Source → Option String → Tree → Except EscapeFault (List Observation)) : Prop where
  access {source : Source} {r : Role} {a : Tree} {above : List Tree} (context : Option String)
    (bare : x.fallback = none) (access : Access r source x.name a)
    (unguarded : Unguarded a above) : Observes ⟨a, above, context⟩ (own source context a)
  fallback {source : Source} {a e : Tree} {op : List Char} (r : Role) (s : Spot)
    (above : List Tree) (context : Option String) (default : x.fallback = some e)
    (access : Access .left source x.name a) (falls : op ∈ fallbackOperators) :
    Observes ⟨.node r .binaryExpression [a, s.token .operator .mark op, e], above, context⟩
      (own source context a)
  element {source : Source} {before after : List (Option Taking × Tree)} {t declarator : Tree}
    (above : List Tree) (context : Option String)
    (declares : Declares source (before ++ (some x, t) :: after) declarator) :
    Observes ⟨declarator, above, context⟩ (do
      let front ← partsShown source context before
      let here ← own source context t
      return front ++ here ++ (← partsShown source context after))

theorem Taking.shownIn_shown (x : Taking) : x.ShownIn x.shown where
  access context bare access unguarded :=
    observes_of_walkStack (walkStack_access bare access unguarded context)
  fallback _ s above context default access falls :=
    observes_of_walkStack (walkStack_fallback default access s falls above context)
  element {source before after t declarator} above context declares := by
    rw [← partsShown_append_cons]
    exact observes_of_walkStack (walkStack_declaration declares above context)

theorem Taking.shownIn_of_eq {x : Taking}
    {own : Source → Option String → Tree → Except EscapeFault (List Observation)}
    (h : ∀ source context t, x.shown source context t = own source context t) :
    x.ShownIn own := by
  obtain rfl : x.shown = own := funext fun source => funext fun context => funext (h source context)
  exact x.shownIn_shown

/-- All forms in which a variable is taken agree. Each of them shows it once, with the guard and the
default that the value behind it makes, just when this value is no text with an escape by a code
beyond the last code point; else each of them fails. -/
theorem taken_alike_iff (x : Taking) :
    ((∃ g, x.Guarded g ∧ x.ShownIn fun source context t =>
        .ok [⟨x.name, source, t.start, t.stop, g.guarded, g.default, context⟩]) ↔
      ∀ fault, ¬ x.Beyond fault) ∧
    ∀ fault, x.Beyond fault → x.ShownIn fun _ _ _ => .error fault := by
  refine ⟨⟨?_, ?_⟩, ?_⟩
  · rintro ⟨g, guarded, -⟩ fault beyond
    have one := Taking.shown_of_guarded guarded .process none (.node .plain .program [])
    rw [Taking.shown_of_beyond beyond] at one
    cases one
  · intro calm
    rcases x.guarded_or_beyond with ⟨g, guarded⟩ | ⟨fault, beyond⟩
    · exact ⟨g, guarded, Taking.shownIn_of_eq (Taking.shown_of_guarded guarded)⟩
    · exact (calm fault beyond).elim
  · intro fault beyond
    exact Taking.shownIn_of_eq (Taking.shown_of_beyond beyond)

/-- A token that stands right at the beginning. -/
def frontToken (r : Role) (k : Kind) (text : String) : Tree :=
  Spot.token ⟨[], ⟨0, 0⟩, ⟨0, 0⟩⟩ r k text.toList

/-- The variable `K`, with `'x'` where it is missing. -/
def orX : Taking where
  name := "K"
  fallback := some (frontToken .right .string "'x'")
  exact := by decide
  right := by
    intro e he
    cases he
    rfl
  free := by
    intro e he
    cases he
    exact Spot.token_free ..

/-- The tree of `process.env`. -/
def processEnv (r : Role) : Tree :=
  .node r .memberExpression [frontToken .object .identifier "process", frontToken .plain .mark ".",
    frontToken .property .propertyIdentifier "env"]

/-- The tree of `K: a = 'x'`. -/
def elementK : Tree :=
  .node .plain .pairPattern [frontToken .key .propertyIdentifier "K", frontToken .plain .mark ":",
    .node .value .assignmentPattern [frontToken .left .identifier "a", frontToken .plain .mark "=",
      frontToken .right .string "'x'"]]

/-- The tree of `process.env.K`. -/
def accessK : Tree :=
  .node .left .memberExpression [processEnv .object, frontToken .plain .mark ".",
    frontToken .property .propertyIdentifier "K"]

/-- The tree of `{ K: a = 'x' } = process.env`. -/
def declarationK : Tree :=
  .node .plain .variableDeclarator
    [.node .name .objectPattern [frontToken .plain .mark "\x7b", elementK,
        frontToken .plain .mark "\x7d"],
      frontToken .plain .mark "=", processEnv .value]

/-- The tree of `process.env.K ?? 'x'`. -/
def fallbackK : Tree :=
  .node .plain .binaryExpression [accessK, frontToken .operator .mark "??",
    frontToken .right .string "'x'"]

theorem processEnv_object (r : Role) : EnvironmentObject r .process (processEnv r) :=
  .process _ _ _ (by simp)

theorem elementK_takes : ElementOf orX elementK :=
  .renamedDefaulted rfl (.plain _) _ _ rfl (Spot.token_free ..)

theorem declarationK_declares : Declares .process [(some orX, elementK)] declarationK :=
  .mk .plain _ (processEnv_object .value) rfl
    (List.forall_mem_singleton.mpr (.element elementK_takes))

theorem orX_calm (fault : EscapeFault) : ¬ orX.Beyond fault := by
  rintro ⟨e, default, -, decoded, -⟩
  cases default
  have value : decodeEscapes (innerText "'x'".toList) = .ok ['x'] := by decide
  cases value.symm.trans decoded

/-- The element `K: a = 'x'` of a declaration and `process.env.K ?? 'x'` show the same. -/
theorem taken_alike_orX : (∀ fault, ¬ orX.Beyond fault) ∧
    Observes ⟨declarationK, [], none⟩
      (.ok [⟨"K", .process, ⟨0, 0⟩, ⟨0, 0⟩, true, some "x", none⟩]) ∧
    Observes ⟨fallbackK, [], none⟩
      (.ok [⟨"K", .process, ⟨0, 0⟩, ⟨0, 0⟩, true, some "x", none⟩]) := by
  obtain ⟨g, guarded, shown⟩ := (taken_alike_iff orX).1.mpr orX_calm
  have value : orX.shown .process none elementK =
      .ok [⟨"K", .process, ⟨0, 0⟩, ⟨0, 0⟩, true, some "x", none⟩] := rfl
  have same := (Taking.shown_of_guarded guarded .process none elementK).symm.trans value
  have element : Declares .process ([] ++ (some orX, elementK) :: []) declarationK :=
    declarationK_declares
  refine ⟨orX_calm, ?_, ?_⟩
  · rw [← same]
    exact shown.element [] none element
  · rw [← same]
    exact shown.fallback .plain _ [] none rfl (.member (processEnv_object .object) _ _ _)
      (by decide)

/-- An element with a default, the rest and an access with a fallback. -/
example : (parse? .javascript
    "const \x7b 'K': a = 'x', ...e \x7d = process.env;process.env.K ?? 'x'".toList).map
      (fun root => (walk root).map (List.map fun o => (o.name, o.guarded, o.default))) =
    some (.ok [("K", true, some "x"), ("K", true, some "x")]) := by
  decide +kernel

/-- A default with an escape by a code beyond the last code point: neither the element nor the
access is observed, since the walk fails. -/
theorem beyondDefault_not_observed :
    (parse? .javascript
      "const \x7b G = \"\\u\x7b110000\x7d\" \x7d = process.env;\n".toList).map walk =
        some (.error (.beyondCodePoints 0x110000)) ∧
      (parse? .javascript "process.env.G ?? \"\\u\x7b110000\x7d\";\n".toList).map walk =
        some (.error (.beyondCodePoints 0x110000)) := by
  decide +kernel

end EnvCensus.Script
