import EnvCensus.Proofs.Except
import EnvCensus.Proofs.Finding
import EnvCensus.Proofs.Script.Grammar.Statements
import EnvCensus.Script.Findings

/-!
# Places of accesses

The tokens of a parsed script spell out its source, each at its place. What a
walk observes are trees within the script, so every access that is observed
starts behind as many line feeds as its place has rows, and its sighting counts
them from one.
-/

namespace EnvCensus.Script

/-! ### Parsed scripts -/

/-- A grammar whose rules spell out what they read has parsers that do. -/
theorem Grammar.parserOf_spells {g : Grammar} (h : g.Spells) (r : Rule) :
    Parser.Spells [] (g.parserOf r) := by
  cases r with
  | statement => exact statement_spells h
  | block => exact block_spells h
  | expression => exact expression_spells h
  | sequence => exact sequence_spells h
  | binary level => exact binary_spells h level
  | operand => exact operand_spells h
  | reference => exact reference_spells h
  | callee => exact callee_spells h
  | binding => exact binding_spells h
  | target => exact target_spells h
  | property => exact propertyName_spells h
  | parameters => exact parameters_spells h
  | classRest => exact classRest_spells h
  | element => exact element_spells h
  | typeExpression => exact typeExpression_spells h
  | typeOperand => exact typeOperand_spells h
  | typeArguments => exact typeArguments_spells h
  | typeParameters => exact typeParameters_spells h
  | objectType => exact objectType_spells h

theorem parseRule_spells (d : Dialect) (fuel : Nat) (r : Rule) :
    Parser.Spells [] (parseRule d fuel r) := by
  induction fuel generalizing r with
  | zero => exact .failure
  | succ fuel ih => exact Grammar.parserOf_spells (g := ⟨d, fuel, parseRule d fuel⟩) ih r

/-- The tokens of a parsed script spell out its source, up to what follows the last of them, and
stand where they say. -/
theorem placed_of_parse? {d : Dialect} {source : List Char} {root : Tree}
    (h : parse? d source = some root) :
    Placed origin root.lexemes ∧ ∃ rest, source = spelled root.lexemes ++ rest := by
  let fuel := rulesPerCharacter * (source.length + 1)
  obtain ⟨⟨t, c⟩, read, rfl⟩ := Option.map_eq_some_iff.mp h
  have grammar : (⟨d, fuel, parseRule d fuel⟩ : Grammar).Spells := parseRule_spells d fuel
  obtain ⟨ks, passed, all⟩ :=
    Grammar.program_spells grammar _ (Cursor.sound_at origin source) t c read
  obtain rfl : t.lexemes = ks := all
  exact ⟨passed.placed, c.raw, passed.raw⟩

/-- A tree within a parsed script stands in the source, and starts behind what stands before it. -/
theorem stands_of_parse? {d : Dialect} {source : List Char} {root t : Tree}
    (h : parse? d source = some root) (within : t.Within root) :
    ∃ before after, source = before ++ covered t.lexemes ++ after ∧
      t.start = origin.advance before := by
  obtain ⟨placed, rest, spelled⟩ := placed_of_parse? h
  obtain ⟨above, below, split⟩ := within.lexemes_infix
  rw [← split] at placed spelled
  obtain ⟨before, after, stands, start⟩ := covered_of_placed placed
  refine ⟨before, after ++ rest, ?_, ?_⟩
  · rw [spelled, stands, List.append_assoc]
  · rw [Tree.start, t.start?_eq]
    exact start

/-! ### Observed trees -/

/-- The tree is what the observation is about: a member or a subscript of an environment object, or
a property of a pattern that takes one apart. -/
def Tree.Shows (t : Tree) (o : Observation) : Prop :=
  ∃ found, o ∈ found ∧ ((∃ above context, observeMember t above context = .ok found) ∨
    (∃ above context, observeSubscript t above context = .ok found) ∨
    ∃ source context, observeProperty source context t = .ok found)

/-- Whatever the computation gives, it is noted at the tree. -/
abbrev NotedAt (t : Tree) (x : Except EscapeFault (List Observation)) : Prop :=
  Ends (fun _ => True) (fun found => ∀ o ∈ found, o.start = t.start) x

theorem noted_start (name : String) (source : Source) (t : Tree) (g : Guard)
    (context : Option String) : ∀ o ∈ noted name source t g context, o.start = t.start := by
  unfold noted
  split
  · exact List.forall_mem_singleton.mpr rfl
  · simp

theorem observeMember_noted (t : Tree) (above : List Tree) (context : Option String) :
    NotedAt t (observeMember t above context) := by
  unfold observeMember
  split
  · split
    · exact (Ends.any _).bind fun g _ => .ok (noted_start _ _ t g _)
    · exact .ok (by simp)
  · exact .ok (by simp)

theorem observeSubscript_noted (t : Tree) (above : List Tree) (context : Option String) :
    NotedAt t (observeSubscript t above context) := by
  unfold observeSubscript
  split
  · refine (Ends.any _).bind fun index _ => ?_
    split
    · exact (Ends.any _).bind fun g _ => .ok (noted_start _ _ t g _)
    · exact .ok (by simp)
  · exact .ok (by simp)

theorem observeProperty_noted (source : Source) (context : Option String) (t : Tree) :
    NotedAt t (observeProperty source context t) := by
  unfold observeProperty
  split
  · exact .ok (noted_start _ _ t _ _)
  · exact (Ends.any _).bind fun d _ => .ok (noted_start _ _ t _ _)
  · refine (Ends.any _).bind fun name _ => ?_
    split
    · split
      · exact (Ends.any _).bind fun d _ => .ok (noted_start _ _ t _ _)
      · exact .ok (noted_start _ _ t _ _)
    · exact .ok (noted_start _ _ t _ _)
  · exact .ok (by simp)

/-- An observation starts where the tree does that it is about. -/
theorem Tree.Shows.start {t : Tree} {o : Observation} (h : t.Shows o) : o.start = t.start := by
  obtain ⟨found, ho, ⟨_, _, read⟩ | ⟨_, _, read⟩ | ⟨_, _, read⟩⟩ := h
  · exact (observeMember_noted ..).result read o ho
  · exact (observeSubscript_noted ..).result read o ho
  · exact (observeProperty_noted ..).result read o ho

theorem mem_children_of_child? {t c : Tree} {r : Role} (h : t.child? r = some c) :
    c ∈ t.children :=
  List.mem_of_find?_eq_some h

theorem mem_children_of_mem_namedChildren {t c : Tree} (h : c ∈ t.namedChildren) :
    c ∈ t.children :=
  List.mem_of_mem_filter h

theorem textless_of_child? {t c : Tree} {r : Role} (none : t.lexemes = []) (h : t.child? r = some c) :
    c.text = [] :=
  Tree.text_eq_nil (List.infix_nil.mp
    (none ▸ Tree.lexemes_infix_of_mem_children (mem_children_of_child? h)))

theorem no_environmentSource {t : Tree} {r : Role} (none : t.lexemes = []) :
    (t.child? r).bind environmentSource = .none := by
  cases child : t.child? r with
  | none => rfl
  | some c =>
    have textless := textless_of_child? none child
    rw [Option.bind_some, environmentSource, textless]
    split <;> rfl

theorem keyName_textless {t : Tree} {name : String} (none : t.lexemes = [])
    (h : keyName (t.child? .key) = .ok name) : name = "" := by
  cases child : t.child? .key with
  | none =>
    rw [child] at h
    cases h
    rfl
  | some c =>
    have textless := textless_of_child? none child
    rw [child, keyName] at h
    split at h
    · rw [literalValue, textless] at h
      split at h
      · cases h
        rfl
      · cases h
        rfl
    · cases h
      rw [Tree.textString, textless]

theorem noted_empty (source : Source) (t : Tree) (g : Guard) (context : Option String) :
    noted "" source t g context = [] := by
  have invalid : Name.isValid "" = false := by decide +kernel
  rw [noted, invalid]
  rfl

theorem observeProperty_textless {t : Tree} {source : Source} {context : Option String}
    {found : List Observation} (none : t.lexemes = [])
    (h : observeProperty source context t = .ok found) : found = [] := by
  unfold observeProperty at h
  split at h
  · rw [Tree.textString, Tree.text_eq_nil none, noted_empty] at h
    cases h
    rfl
  · obtain ⟨d, -, h⟩ := bind_eq_ok.mp h
    have left : (((t.child? .left).map Tree.textString).getD "") = "" := by
      cases child : t.child? .left with
      | none => rfl
      | some c => rw [Option.map_some, Option.getD_some, Tree.textString, textless_of_child? none child]
    rw [left, noted_empty] at h
    cases h
    rfl
  · obtain ⟨name, key, h⟩ := bind_eq_ok.mp h
    obtain rfl := keyName_textless none key
    split at h
    · split at h
      · obtain ⟨d, -, h⟩ := bind_eq_ok.mp h
        rw [noted_empty] at h
        cases h
        rfl
      · rw [noted_empty] at h
        cases h
        rfl
    · rw [noted_empty] at h
      cases h
      rfl
  · cases h
    rfl

/-- What an observation is about has tokens. -/
theorem Tree.Shows.lexemes_ne_nil {t : Tree} {o : Observation} (h : t.Shows o) :
    t.lexemes ≠ [] := by
  intro none
  obtain ⟨found, ho, ⟨_, _, read⟩ | ⟨_, _, read⟩ | ⟨_, _, read⟩⟩ := h
  · rw [observeMember, no_environmentSource none] at read
    cases read
    cases ho
  · rw [observeSubscript, no_environmentSource none] at read
    cases read
    cases ho
  · rw [observeProperty_textless none read] at ho
    cases ho

/-- What a visit shows is about the tree itself or a tree within it. -/
theorem shows_within {v : Visit} {found : List Observation} (h : v.shows = .ok found) :
    ∀ o ∈ found, ∃ t : Tree, t.Within v.tree ∧ t.Shows o := by
  intro o ho
  unfold Visit.shows observe at h
  split at h
  · exact ⟨v.tree, .refl, found, ho, Or.inl ⟨_, _, h⟩⟩
  · exact ⟨v.tree, .refl, found, ho, Or.inr (Or.inl ⟨_, _, h⟩)⟩
  · unfold observeDeclarator at h
    split at h
    · rename_i source pattern _ named
      split at h
      · obtain ⟨parts, hparts, rfl⟩ := map_eq_ok.mp h
        obtain ⟨part, hpart, ho⟩ := List.mem_flatten.mp ho
        obtain ⟨e, he, read⟩ := mem_of_mapM hparts hpart
        have within : e.Within v.tree :=
          .child (.child .refl (mem_children_of_mem_namedChildren he)) (mem_children_of_child? named)
        exact ⟨e, within, part, ho, Or.inr (Or.inr ⟨_, _, read⟩)⟩
      · cases h
        cases ho
    · cases h
      cases ho
  · cases h
    cases ho

/-- All observations are about trees within the tree. -/
def AllWithin (root : Tree) (found : List Observation) : Prop :=
  ∀ o ∈ found, ∃ t : Tree, t.Within root ∧ t.Shows o

theorem walkStack_within {root : Tree} {stack : List Visit} {found all : List Observation}
    (trees : ∀ v ∈ stack, v.tree.Within root) (old : AllWithin root found)
    (h : walkStack stack found = .ok all) : AllWithin root all := by
  fun_induction walkStack stack found with
  | case1 found =>
    cases h
    exact fun o ho => old o (List.mem_reverse.mp ho)
  | case2 found v rest here shown ih =>
    obtain ⟨first, others⟩ := List.forall_mem_cons.mp trees
    refine ih ?_ ?_ h
    · refine List.forall_mem_append.mpr ⟨fun w hw => ?_, others⟩
      obtain ⟨c, hc, rfl⟩ := List.mem_map.mp hw
      exact .trans (.child .refl (mem_children_of_mem_namedChildren hc)) first
    · intro o ho
      rcases List.mem_append.mp ho with ho | ho
      · obtain ⟨t, within, shows⟩ := shows_within shown o (List.mem_reverse.mp ho)
        exact ⟨t, within.trans first, shows⟩
      · exact old o ho
  | case3 found v rest e shown => cases h

/-- What a walk observes are trees within the script. -/
theorem walk_within {root : Tree} {found : List Observation} (h : walk root = .ok found) :
    AllWithin root found :=
  walkStack_within (List.forall_mem_singleton.mpr .refl) (by simp [AllWithin]) h

/-! ### Sightings and findings -/

/-- In the source there stands an access to the variable behind the text. -/
def AccessBehind (d : Dialect) (source : List Char) (name : String) (before : List Char) : Prop :=
  ∃ (root t : Tree) (o : Observation) (after : List Char),
    parse? d source = some root ∧ t.Within root ∧ t.Shows o ∧ o.name = name ∧
      t.lexemes ≠ [] ∧ source = before ++ covered t.lexemes ++ after

/-- A sighting stands at an access, and its line and column are those of the place there. -/
theorem sightings_placed {d : Dialect} {source : List Char} {root : Tree} {seen : List Sighting}
    (parsed : parse? d source = some root) (h : sightings source root = .ok seen) :
    ∀ s ∈ seen, ∃ before after, AccessBehind d source s.observation.name before ∧
      source = before ++ after ∧
      (s.line, s.column) = (lineTable source).position (origin.advance before) := by
  obtain ⟨found, walked, rfl⟩ := map_eq_ok.mp h
  intro s hs
  obtain ⟨o, ho, rfl⟩ := List.mem_map.mp hs
  obtain ⟨t, within, shows⟩ := walk_within walked o ho
  obtain ⟨before, after, stands, start⟩ := stands_of_parse? parsed within
  refine ⟨before, covered t.lexemes ++ after, ?_, by rw [stands, List.append_assoc], ?_⟩
  · exact ⟨root, t, o, after, parsed, within, shows, rfl, shows.lexemes_ne_nil, stands⟩
  · rw [← start, ← shows.start]

/-- The lines of sightings count the line feeds before the accesses, from one on. -/
theorem sightings_behind {d : Dialect} {source : List Char} {root : Tree} {seen : List Sighting}
    (parsed : parse? d source = some root) (h : sightings source root = .ok seen) :
    ∀ s ∈ seen, ∃ before, AccessBehind d source s.observation.name before ∧
      s.line = 1 + before.count '\n' := by
  intro s hs
  obtain ⟨before, after, access, -, placed⟩ := sightings_placed parsed h s hs
  refine ⟨before, access, ?_⟩
  have line : s.line = (origin.advance before).row + 1 := congrArg Prod.fst placed
  rw [line, Point.advance_row]
  simp only [origin]
  omega

/-- The references of a finding have the lines of the sightings that it is made of. -/
theorem findingOf_lines {here path : String} {options : Options} {key : Source × String}
    {group : List Sighting} {f : Finding} (h : findingOf here path options key group = .ok f) :
    f.name = key.2 ∧ ∀ r ∈ f.files, ∃ s ∈ group, r.line = s.line := by
  obtain ⟨refs, made, h⟩ := bind_eq_ok.mp h
  obtain ⟨source, rfl⟩ := Finding.make_cases (mapError_eq_ok.mp h)
  refine ⟨rfl, fun r hr => ?_⟩
  obtain ⟨s, hs, ref⟩ := mem_of_mapM made hr
  exact ⟨s, hs, (FileRef.make_counts (mapError_eq_ok.mp ref)).1⟩

/-- Every reference of a scanned script stands at an access to the variable of its finding. -/
theorem scanSource_behind {here path : String} {options : Options} {d : Dialect}
    {source : List Char} {found : List Finding}
    (h : scanSource here path options d source = .ok found) :
    ∀ f ∈ found, ∀ r ∈ f.files, ∃ before, AccessBehind d source f.name before ∧
      r.line = 1 + before.count '\n' := by
  unfold scanSource at h
  split at h
  · cases h
  · rename_i root parsed
    obtain ⟨seen, sighted, h⟩ := bind_eq_ok.mp h
    refine all_of_mapM h fun key _ f hf r hr => ?_
    obtain ⟨named, lines⟩ := findingOf_lines hf
    obtain ⟨s, hs, line⟩ := lines r hr
    obtain ⟨hs, same⟩ := List.mem_filter.mp hs
    have access := sightings_behind parsed (mapError_eq_ok.mp sighted) s hs
    rw [named, line, ← eq_of_beq same]
    exact access

end EnvCensus.Script
