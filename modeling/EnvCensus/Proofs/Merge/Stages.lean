import EnvCensus.Proofs.Merge

/-!
# Merging in stages

Two lists of findings are tantamount when every rule of merging draws the same
from both. A finding is tantamount to the group that it stands for, and lists
may be replaced by tantamount ones part by part; so a list may be merged in
stages, however it is divided.
-/

namespace EnvCensus.Finding

/-- Every rule of merging draws the same from the two lists. -/
structure Tantamount (xs ys : List Finding) : Prop where
  files : FileRef.dedupe (xs.flatMap (·.files)) = FileRef.dedupe (ys.flatMap (·.files))
  required : xs.any (·.required) = ys.any (·.required)
  isPublic : xs.any (·.isPublic) = ys.any (·.isPublic)
  defaultValue : xs.findSome? realDefault = ys.findSome? realDefault
  notes : xs.flatMap (·.notes) = ys.flatMap (·.notes)
  rank : ∀ r, (∀ f ∈ xs, r ≤ f.source.rank) ↔ ∀ f ∈ ys, r ≤ f.source.rank

theorem Tantamount.refl (xs : List Finding) : Tantamount xs xs :=
  ⟨rfl, rfl, rfl, rfl, rfl, fun _ => Iff.rfl⟩

theorem Tantamount.append {xs xs' ys ys' : List Finding} (hx : Tantamount xs xs')
    (hy : Tantamount ys ys') : Tantamount (xs ++ ys) (xs' ++ ys') where
  files := by
    rw [List.flatMap_append, List.flatMap_append]
    exact distinctBy_append_congr hx.files hy.files
  required := by rw [List.any_append, List.any_append, hx.required, hy.required]
  isPublic := by rw [List.any_append, List.any_append, hx.isPublic, hy.isPublic]
  defaultValue := by
    rw [List.findSome?_append, List.findSome?_append, hx.defaultValue, hy.defaultValue]
  notes := by rw [List.flatMap_append, List.flatMap_append, hx.notes, hy.notes]
  rank := by
    intro r
    simp only [List.mem_append, or_imp, forall_and]
    rw [hx.rank r, hy.rank r]

theorem realDefault_of_find? {ds : List String} {m : Finding}
    (h : m.defaultValue = ds.find? (· ≠ "")) : m.realDefault = m.defaultValue := by
  unfold realDefault
  cases hd : m.defaultValue with
  | none => rfl
  | some d =>
    have real : d ≠ "" := by simpa using List.find?_some (h.symm.trans hd)
    simp [real]

theorem Unites.tantamount {group : List Finding} {m : Finding} (h : Unites group m) :
    Tantamount group [m] where
  files := by
    have hm : m.files = FileRef.dedupe (group.flatMap (·.files)) :=
      h.files.trans (distinctBy_eq_eraseDupsBy _).symm
    rw [List.flatMap_singleton, hm]
    exact (distinctBy_distinctBy _).symm
  required := by
    rw [Bool.eq_iff_iff, List.any_eq_true, List.any_cons, List.any_nil, Bool.or_false]
    exact h.required.symm
  isPublic := by
    rw [Bool.eq_iff_iff, List.any_eq_true, List.any_cons, List.any_nil, Bool.or_false]
    exact h.isPublic.symm
  defaultValue := by
    rw [findSome?_realDefault, ← h.defaultValue, List.findSome?_singleton]
    exact (realDefault_of_find? h.defaultValue).symm
  notes := by
    rw [List.flatMap_singleton]
    exact h.notes.symm
  rank := by
    intro r
    rw [List.forall_mem_singleton]
    constructor
    · intro low
      obtain ⟨f, hf, e⟩ := h.source
      exact e ▸ low f hf
    · exact fun low f hf => Nat.le_trans low (h.leads f hf)

theorem StandsFor.tantamount {group : List Finding} {m : Finding} (h : StandsFor group m) :
    Tantamount group [m] := by
  rcases h with rfl | ⟨_, h⟩
  · exact Tantamount.refl _
  · exact h.tantamount

/-- What unites a list unites every tantamount list of findings of the name. -/
theorem Unites.of_tantamount {xs ys : List Finding} {m : Finding} (h : Unites ys m)
    (same : Tantamount xs ys) (name : ∀ f ∈ xs, f.name = m.name) : Unites xs m where
  name := name
  files := by
    rw [h.files, ← distinctBy_eq_eraseDupsBy, ← distinctBy_eq_eraseDupsBy]
    exact same.files.symm
  required := by rw [h.required, ← List.any_eq_true, ← List.any_eq_true, same.required]
  isPublic := by rw [h.isPublic, ← List.any_eq_true, ← List.any_eq_true, same.isPublic]
  defaultValue := by
    rw [h.defaultValue, ← findSome?_realDefault, ← findSome?_realDefault, same.defaultValue]
  notes := by rw [h.notes, same.notes]
  leads := (same.rank _).mpr h.leads
  source := by
    -- otherwise every source of `xs` had a higher rank, and then every source of `ys`
    by_contra none
    have above : ∀ f ∈ xs, m.source.rank + 1 ≤ f.source.rank := by
      intro f hf
      have le := (same.rank _).mpr h.leads f hf
      have ne : m.source.rank ≠ f.source.rank := fun e =>
        none ⟨f, hf, (Source.rank_injective e).symm⟩
      omega
    obtain ⟨f, hf, e⟩ := h.source
    have := (same.rank _).mp above f hf
    rw [e] at this
    omega

theorem StandsFor.length_pos {group : List Finding} {m : Finding} (h : StandsFor group m) :
    0 < group.length := by
  rcases h with rfl | ⟨two, _⟩
  · exact Nat.one_pos
  · omega

theorem tantamount_flatten {groups : List (List Finding)} {ms : List Finding}
    (parts : List.Forall₂ StandsFor groups ms) : Tantamount groups.flatten ms := by
  induction parts with
  | nil => exact Tantamount.refl []
  | cons h _ ih => exact h.tantamount.append ih

theorem length_le_flatten {groups : List (List Finding)} {ms : List Finding}
    (parts : List.Forall₂ StandsFor groups ms) : ms.length ≤ groups.flatten.length := by
  induction parts with
  | nil => exact Nat.le_refl 0
  | cons h _ ih =>
    have := h.length_pos
    rw [List.flatten_cons, List.length_append, List.length_cons]
    omega

theorem name_of_mem_flatten {groups : List (List Finding)} {ms : List Finding} {m : Finding}
    (parts : List.Forall₂ StandsFor groups ms) (same : ∀ k ∈ ms, k.name = m.name) :
    ∀ f ∈ groups.flatten, f.name = m.name := by
  induction parts with
  | nil => simp
  | cons h _ ih =>
    intro f hf
    rcases List.mem_append.mp hf with hf | hf
    · exact (h.name hf).trans (same _ List.mem_cons_self)
    · exact ih (fun k hk => same k (List.mem_cons_of_mem _ hk)) f hf

/-- What stands for the findings that stand for groups stands for all members of the groups. -/
theorem StandsFor.flatten {groups : List (List Finding)} {ms : List Finding} {m : Finding}
    (parts : List.Forall₂ StandsFor groups ms) (h : StandsFor ms m) :
    StandsFor groups.flatten m := by
  rcases h with rfl | ⟨two, h⟩
  · obtain ⟨group, rest, stands, none, rfl⟩ := List.forall₂_cons_right_iff.mp parts
    rw [List.forall₂_nil_right_iff.mp none]
    simpa using stands
  · refine Or.inr ⟨Nat.le_trans two (length_le_flatten parts), ?_⟩
    exact h.of_tantamount (tantamount_flatten parts) (name_of_mem_flatten parts h.name)

/-! ## Summaries of parts -/

theorem named_append (n : String) (fs gs : List Finding) :
    named n (fs ++ gs) = named n fs ++ named n gs :=
  List.filter_append ..

/-- A summary has no finding of a name that the list has not, and otherwise the one that stands
for it. -/
theorem Summary.named_cases {fs ms : List Finding} (h : Summary fs ms) (n : String) :
    named n fs = [] ∧ named n ms = [] ∨ ∃ m, named n ms = [m] ∧ StandsFor (named n fs) m := by
  by_cases hn : n ∈ fs.map (·.name)
  · obtain ⟨m, hm, rfl⟩ := List.mem_map.mp ((h.names n).mpr hn)
    refine Or.inr ⟨m, ?_, h.stands m hm⟩
    have nodup : (named m.name ms).Nodup := (h.nodup.of_map _).filter _
    refine List.perm_singleton.mp ((List.perm_ext_iff_of_nodup nodup (List.nodup_singleton m)).mpr ?_)
    intro k
    rw [mem_named, List.mem_singleton]
    constructor
    · rintro ⟨hk, e⟩
      exact (e ▸ h.stands k hk).unique (h.stands m hm)
    · rintro rfl
      exact ⟨hm, rfl⟩
  · refine Or.inl ⟨?_, ?_⟩
    · exact not_not.mp fun ne => hn (named_ne_nil.mp ne)
    · exact not_not.mp fun ne => hn ((h.names n).mp (named_ne_nil.mp ne))

theorem exists_groups {chunks parts : List (List Finding)} (h : List.Forall₂ Summary chunks parts)
    (n : String) : ∃ groups, groups.flatten = named n chunks.flatten ∧
      List.Forall₂ StandsFor groups (named n parts.flatten) := by
  induction h with
  | nil => exact ⟨[], rfl, .nil⟩
  | cons h _ ih =>
    obtain ⟨groups, flat, stands⟩ := ih
    simp only [List.flatten_cons, named_append]
    rcases h.named_cases n with ⟨hc, hp⟩ | ⟨m, hp, hm⟩
    · exact ⟨groups, by rw [hc, flat]; rfl, by rw [hp]; exact stands⟩
    · exact ⟨_ :: groups, by rw [List.flatten_cons, flat], by rw [hp]; exact .cons hm stands⟩

theorem names_flatten_iff {chunks parts : List (List Finding)}
    (h : List.Forall₂ Summary chunks parts) (n : String) :
    n ∈ parts.flatten.map (·.name) ↔ n ∈ chunks.flatten.map (·.name) := by
  induction h with
  | nil => exact Iff.rfl
  | cons h _ ih =>
    rw [List.flatten_cons, List.flatten_cons, List.map_append, List.map_append, List.mem_append,
      List.mem_append, h.names n, ih]

/-- The summary of the summaries of parts is the summary of the whole. -/
theorem Summary.flatten {chunks parts : List (List Finding)} {ms : List Finding}
    (h : List.Forall₂ Summary chunks parts) (hms : Summary parts.flatten ms) :
    Summary chunks.flatten ms where
  ordered := hms.ordered
  names n := (hms.names n).trans (names_flatten_iff h n)
  stands := by
    intro m hm
    obtain ⟨groups, flat, stands⟩ := exists_groups h m.name
    exact flat ▸ (hms.stands m hm).flatten stands

theorem Summary.idem {fs ms : List Finding} (h : Summary fs ms) : Summary ms ms where
  ordered := h.ordered
  names n := Iff.rfl
  stands := by
    intro m hm
    rcases h.named_cases m.name with ⟨_, none⟩ | ⟨k, one, _⟩
    · exact absurd hm (by simpa using List.filter_eq_nil_iff.mp none m)
    · have mem : m ∈ named m.name ms := mem_named.mpr ⟨hm, rfl⟩
      rw [one] at mem ⊢
      exact Or.inl (by rw [List.mem_singleton.mp mem])

/-- Merging the parts of a list and then their results gives what merging the list gives, and
merging the result again changes nothing. -/
theorem mergeAll_in_stages {chunks : List (List Finding)} (valid : ∀ c ∈ chunks, ∀ f ∈ c, f.Valid) :
    ∃ parts ms, chunks.mapM mergeAll = .ok parts ∧ mergeAll parts.flatten = .ok ms ∧
      mergeAll chunks.flatten = .ok ms ∧ mergeAll ms = .ok ms := by
  obtain ⟨parts, hparts, all⟩ := mapM_forall₂ (g := mergeAll)
    (R := fun c part => Summary c part ∧ ∀ m ∈ part, m.Valid) fun c hc =>
      mergeAll_summary (valid c hc)
  have summaries := all.imp fun _ _ h => h.1
  have validParts : ∀ f ∈ parts.flatten, f.Valid := by
    clear hparts summaries
    induction all with
    | nil => simp
    | cons h _ ih =>
      intro f hf
      rcases List.mem_append.mp hf with hf | hf
      · exact h.2 f hf
      · exact ih (fun c hc => valid c (List.mem_cons_of_mem _ hc)) f hf
  have validWhole : ∀ f ∈ chunks.flatten, f.Valid := by
    intro f hf
    obtain ⟨c, hc, hf⟩ := List.mem_flatten.mp hf
    exact valid c hc f hf
  obtain ⟨ms, hms, summary, validAll⟩ := mergeAll_summary validParts
  refine ⟨parts, ms, hparts, hms, ?_, ?_⟩
  · exact (mergeAll_eq_ok_iff validWhole).mpr (Summary.flatten summaries summary)
  · exact (mergeAll_eq_ok_iff validAll).mpr summary.idem

/-- A chunk with a place named twice and an empty default, which another chunk joins. -/
theorem mergeAll_in_two_stages :
    let chunks : List (List Finding) :=
      [[⟨"A", .shell, [⟨"/p/a.sh", 1, 1, none, none⟩, ⟨"/p/a.sh", 1, 1, some "x", none⟩], false,
          some "", false, ["n"]⟩, ⟨"B", .ast, [⟨"/p/b.js", 1, 1, none, none⟩], true, none, false, []⟩],
       [⟨"A", .dotenv, [⟨"/p/.env", 1, 1, none, none⟩], true, some "1", true, []⟩], []]
    (∀ c ∈ chunks, ∀ f ∈ c, f.Valid) ∧
      ∃ parts ms, chunks.mapM mergeAll = .ok parts ∧ mergeAll parts.flatten = .ok ms ∧
        mergeAll chunks.flatten = .ok ms ∧ mergeAll ms = .ok ms := by
  intro chunks
  have valid : ∀ c ∈ chunks, ∀ f ∈ c, f.Valid := by decide
  exact ⟨valid, mergeAll_in_stages valid⟩

end EnvCensus.Finding
