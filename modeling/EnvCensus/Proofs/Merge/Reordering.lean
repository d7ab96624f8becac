import EnvCensus.Proofs.Merge.Stages

/-!
# Merging reordered findings and more findings

How the findings of different names are mixed has no effect on their merge.
When findings of one name change places too, only what depends on the order of
a group can change: which default comes first, the order of notes and places,
and which of several references to one place is kept.

Further findings never take anything from a merged one: it is still there, with
all of its places, it stays required or public, its source does not lose rank
and it does not lose its default.
-/

namespace EnvCensus.Finding

/-- What two findings of a name have in common whatever the order of the findings behind them. -/
structure Agrees (m n : Finding) : Prop where
  name : m.name = n.name
  required : m.required = n.required
  isPublic : m.isPublic = n.isPublic
  source : m.source = n.source
  places : ∀ k, k ∈ m.files.map (·.key) ↔ k ∈ n.files.map (·.key)
  notes : m.notes.Perm n.notes
  defaults : (∃ d, m.defaultValue = some d ∧ d ≠ "") ↔ ∃ d, n.defaultValue = some d ∧ d ≠ ""

theorem Tantamount.places {group : List Finding} {m : Finding} (h : Tantamount group [m])
    (k : String × Nat × Nat) :
    k ∈ m.files.map (·.key) ↔ k ∈ (group.flatMap (·.files)).map (·.key) := by
  have same : FileRef.dedupe m.files = FileRef.dedupe (group.flatMap (·.files)) := by
    rw [h.files, List.flatMap_singleton]
  have kept : ∀ refs : List FileRef,
      k ∈ refs.map (·.key) ↔ k ∈ (FileRef.dedupe refs).map (·.key) :=
    fun _ => mem_keys_distinctBy.symm
  rw [kept, kept (group.flatMap _), same]

theorem realDefault_eq_some {m : Finding} {d : String} :
    m.realDefault = some d ↔ m.defaultValue = some d ∧ d ≠ "" := by
  simp [realDefault, Option.filter_eq_some_iff]

theorem Tantamount.defaults {group : List Finding} {m : Finding} (h : Tantamount group [m]) :
    (∃ d, m.defaultValue = some d ∧ d ≠ "") ↔ ∃ f ∈ group, f.realDefault.isSome = true := by
  have first : group.findSome? realDefault = m.realDefault := by
    rw [h.defaultValue, List.findSome?_singleton]
  simp only [← realDefault_eq_some, ← Option.isSome_iff_exists, ← first, List.findSome?_isSome_iff]

/-- Findings that stand for reordered groups agree. -/
theorem StandsFor.agrees {xs ys : List Finding} {m n : Finding} (perm : xs.Perm ys)
    (hm : StandsFor xs m) (hn : StandsFor ys n) : Agrees m n := by
  have tm := hm.tantamount
  have tn := hn.tantamount
  refine ⟨?_, ?_, ?_, ?_, ?_, ?_, ?_⟩
  · obtain ⟨f, hf⟩ := List.exists_mem_of_length_pos hm.length_pos
    exact (hm.name hf).symm.trans (hn.name (perm.mem_iff.mp hf))
  · have h := tm.required.symm.trans (perm.any_eq.trans tn.required)
    simpa using h
  · have h := tm.isPublic.symm.trans (perm.any_eq.trans tn.isPublic)
    simpa using h
  · have low : ∀ r, r ≤ m.source.rank ↔ r ≤ n.source.rank := by
      intro r
      have h := (tm.rank r).symm.trans ((forall_congr' fun f => imp_congr_left perm.mem_iff).trans
        (tn.rank r))
      simpa using h
    exact Source.rank_injective (Nat.le_antisymm ((low _).mp (Nat.le_refl _))
      ((low _).mpr (Nat.le_refl _)))
  · intro k
    rw [tm.places, tn.places]
    exact ((perm.flatMap_right _).map _).mem_iff
  · have hm : m.notes = xs.flatMap (·.notes) := by rw [tm.notes, List.flatMap_singleton]
    have hn : n.notes = ys.flatMap (·.notes) := by rw [tn.notes, List.flatMap_singleton]
    rw [hm, hn]
    exact perm.flatMap_right _
  · rw [tm.defaults, tn.defaults]
    exact exists_congr fun f => and_congr_left' perm.mem_iff

/-- The summaries of reordered lists have the same names in the same order. -/
theorem Summary.names_eq {fs gs ms ns : List Finding} (perm : fs.Perm gs) (hm : Summary fs ms)
    (hn : Summary gs ns) : ms.map (·.name) = ns.map (·.name) := by
  have same : ∀ n, n ∈ ms.map (·.name) ↔ n ∈ ns.map (·.name) := by
    intro n
    rw [hm.names, hn.names]
    exact (perm.map _).mem_iff
  have sortedM : (ms.map (·.name)).Pairwise fun x y => Collation.Before (id x) (id y) :=
    List.pairwise_map.mpr hm.ordered
  have sortedN : (ns.map (·.name)).Pairwise fun x y => Collation.Before (id x) (id y) :=
    List.pairwise_map.mpr hn.ordered
  exact Collation.eq_of_before sortedM sortedN same

theorem Summary.agrees {fs gs ms ns : List Finding} (perm : fs.Perm gs) (hm : Summary fs ms)
    (hn : Summary gs ns) : List.Forall₂ Agrees ms ns := by
  have paired : List.Forall₂ (fun m n => m.name = n.name) ms ns := by
    rw [← List.forall₂_map_left_iff (R := fun s (n : Finding) => s = n.name),
      ← List.forall₂_map_right_iff (R := Eq), List.forall₂_eq_eq_eq]
    exact hm.names_eq perm hn
  rw [List.forall₂_iff_zip] at paired ⊢
  refine ⟨paired.1, fun {m n} hmn => ?_⟩
  obtain ⟨hmm, hnn⟩ := List.of_mem_zip hmn
  have groups := perm.filter fun f => f.name == m.name
  exact (hm.stands m hmm).agrees groups (by
    have h := hn.stands n hnn
    rwa [← paired.2 hmn] at h)

/-- Findings whose groups keep their order merge to one result, and reordered findings to
results that agree name by name. -/
theorem mergeAll_reordered {fs gs : List Finding} (valid : ∀ f ∈ fs, f.Valid) (perm : fs.Perm gs) :
    ((∀ n, named n fs = named n gs) → mergeAll fs = mergeAll gs) ∧
      ∃ ms ns, mergeAll fs = .ok ms ∧ mergeAll gs = .ok ns ∧ List.Forall₂ Agrees ms ns := by
  have valid' : ∀ g ∈ gs, g.Valid := fun g hg => valid g (perm.mem_iff.mpr hg)
  obtain ⟨ms, hms, hm, _⟩ := mergeAll_summary valid
  obtain ⟨ns, hns, hn, _⟩ := mergeAll_summary valid'
  refine ⟨fun same => ?_, ms, ns, hms, hns, hm.agrees perm hn⟩
  rw [hms, mergeAll_eq_ok_iff valid' |>.mpr]
  refine ⟨hm.ordered, fun n => (hm.names n).trans (perm.map _).mem_iff, fun m hm' => ?_⟩
  exact same m.name ▸ hm.stands m hm'

/-- Two findings of one name around one of another, and the other one moved to the front. -/
theorem mergeAll_moved_to_front :
    let a : Finding := ⟨"A", .shell, [⟨"/p/a.sh", 1, 1, none, none⟩], false, some "1", false, ["m"]⟩
    let b : Finding := ⟨"B", .ast, [⟨"/p/b.js", 1, 1, none, none⟩], true, none, false, []⟩
    let a' : Finding := ⟨"A", .dotenv, [⟨"/p/.env", 1, 1, none, none⟩], true, some "2", true, ["n"]⟩
    let fs := [a, b, a']
    let gs := [b, a, a']
    (∀ f ∈ fs, f.Valid) ∧ fs.Perm gs ∧ (∀ n, named n fs = named n gs) ∧ mergeAll fs = mergeAll gs ∧
      ∃ ms ns, mergeAll fs = .ok ms ∧ mergeAll gs = .ok ns ∧ List.Forall₂ Agrees ms ns := by
  intro a b a' fs gs
  have valid : ∀ f ∈ fs, f.Valid := by decide
  have perm : fs.Perm gs := by decide
  have same : ∀ n, named n fs = named n gs := by
    intro n
    by_cases hb : "B" = n
    · subst hb
      decide
    · simp [named, fs, gs, a, b, a', List.filter_cons, hb]
  have merged := mergeAll_reordered valid perm
  exact ⟨valid, perm, same, merged.1 same, merged.2⟩

/-! ### More findings -/

/-- What the finding `m` says of its variable, `n` says too. -/
structure Subsumes (n m : Finding) : Prop where
  name : n.name = m.name
  required : m.required = true → n.required = true
  isPublic : m.isPublic = true → n.isPublic = true
  places : ∀ k ∈ m.files.map (·.key), k ∈ n.files.map (·.key)
  source : n.source.rank ≤ m.source.rank
  default : (∃ d, m.defaultValue = some d ∧ d ≠ "") → ∃ d, n.defaultValue = some d ∧ d ≠ ""

/-- What stands for a group subsumes what stands for a part of it. -/
theorem StandsFor.subsumes {xs ys : List Finding} {m n : Finding} (sub : xs ⊆ ys)
    (hm : StandsFor xs m) (hn : StandsFor ys n) : Subsumes n m := by
  have tm := hm.tantamount
  have tn := hn.tantamount
  have any_mono : ∀ p : Finding → Bool, xs.any p = true → ys.any p = true := by
    intro p h
    obtain ⟨f, hf, hp⟩ := List.any_eq_true.mp h
    exact List.any_eq_true.mpr ⟨f, sub hf, hp⟩
  refine ⟨?_, ?_, ?_, ?_, ?_, ?_⟩
  · obtain ⟨f, hf⟩ := List.exists_mem_of_length_pos hm.length_pos
    exact (hn.name (sub hf)).symm.trans (hm.name hf)
  · intro required
    have all := any_mono (·.required) (tm.required.trans (by simpa using required))
    simpa using tn.required.symm.trans all
  · intro isPublic
    have all := any_mono (·.isPublic) (tm.isPublic.trans (by simpa using isPublic))
    simpa using tn.isPublic.symm.trans all
  · intro k hk
    rw [tn.places]
    obtain ⟨r, hr, e⟩ := List.mem_map.mp ((tm.places k).mp hk)
    obtain ⟨f, hf, hr⟩ := List.mem_flatMap.mp hr
    exact List.mem_map.mpr ⟨r, List.mem_flatMap.mpr ⟨f, sub hf, hr⟩, e⟩
  · have least := (tn.rank n.source.rank).mpr (by simp)
    simpa using (tm.rank n.source.rank).mp fun f hf => least f (sub hf)
  · rw [tm.defaults, tn.defaults]
    exact fun ⟨f, hf, given⟩ => ⟨f, sub hf, given⟩

/-- Every finding of a summary is subsumed in the summary of more findings. -/
theorem Summary.subsumed {fs gs ms ns : List Finding} (sub : fs ⊆ gs) (hm : Summary fs ms)
    (hn : Summary gs ns) : ∀ m ∈ ms, ∃ n ∈ ns, Subsumes n m := by
  intro m mem
  have named_sub : named m.name fs ⊆ named m.name gs :=
    List.filter_subset _ sub
  have inNames : m.name ∈ ns.map (·.name) := by
    obtain ⟨f, hf, e⟩ := List.mem_map.mp ((hm.names m.name).mp (List.mem_map_of_mem mem))
    exact (hn.names m.name).mpr (List.mem_map.mpr ⟨f, sub hf, e⟩)
  obtain ⟨n, hmem, same⟩ := List.mem_map.mp inNames
  have stands := hn.stands n hmem
  rw [show n.name = m.name from same] at stands
  exact ⟨n, hmem, (hm.stands m mem).subsumes named_sub stands⟩

end EnvCensus.Finding
