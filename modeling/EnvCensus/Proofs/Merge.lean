import EnvCensus.Proofs.Collation
import EnvCensus.Proofs.Distinct
import EnvCensus.Proofs.Except
import EnvCensus.Proofs.Finding

/-!
# Merged findings

A finding stands for the findings of one name: it is the only one of them, or
it unites them by one rule for each of its parts. Which finding stands for a
group is decided by the group, and the merge of a list holds exactly the
findings that stand for its names, in the order of names. No place is lost by
merging and none is added, whatever the findings are.
-/

namespace EnvCensus

namespace Source

theorem mem_precedence (s : Source) : s ∈ precedence := by
  cases s <;> decide

theorem rank_injective : Function.Injective rank := by
  intro s t h
  cases s <;> cases t <;> first | rfl | exact absurd h (by decide)

/-- The first source of the order of precedence with a property is the one of least rank. -/
theorem find?_precedence {p : Source → Bool} {s : Source}
    (h : precedence.find? p = some s) : p s = true ∧ ∀ t, p t = true → s.rank ≤ t.rank := by
  obtain ⟨hs, earlier, later, split, fails⟩ := List.find?_eq_some_iff_append.mp h
  refine ⟨hs, fun t ht => ?_⟩
  have notIn : ∀ u, p u = true → u ∉ earlier := by
    intro u hu hmem
    have := fails u hmem
    simp [hu] at this
  rw [rank, rank, split, List.idxOf_append_of_notMem (notIn s hs),
    List.idxOf_append_of_notMem (notIn t ht), List.idxOf_cons_self]
  exact Nat.add_le_add_left (Nat.zero_le _) _

end Source

namespace Finding

/-- The findings of one name, in their order. -/
def named (n : String) (fs : List Finding) : List Finding := fs.filter fun f => f.name == n

theorem mem_named {n : String} {fs : List Finding} {f : Finding} :
    f ∈ named n fs ↔ f ∈ fs ∧ f.name = n := by
  simp [named]

theorem named_ne_nil {n : String} {fs : List Finding} :
    named n fs ≠ [] ↔ n ∈ fs.map (·.name) := by
  rw [ne_eq, List.eq_nil_iff_forall_not_mem, not_forall, List.mem_map]
  simp only [not_not, mem_named]

/-- What a finding that unites several of one name takes from them. -/
structure Unites (group : List Finding) (m : Finding) : Prop where
  name : ∀ f ∈ group, f.name = m.name
  files : m.files = (group.flatMap (·.files)).eraseDupsBy fun r s => r.key == s.key
  required : m.required = true ↔ ∃ f ∈ group, f.required = true
  isPublic : m.isPublic = true ↔ ∃ f ∈ group, f.isPublic = true
  defaultValue : m.defaultValue = (group.filterMap (·.defaultValue)).find? (· ≠ "")
  notes : m.notes = group.flatMap (·.notes)
  source : ∃ f ∈ group, f.source = m.source
  leads : ∀ f ∈ group, m.source.rank ≤ f.source.rank

/-- The finding `m` stands for a group of findings of one name. -/
def StandsFor (group : List Finding) (m : Finding) : Prop :=
  group = [m] ∨ 2 ≤ group.length ∧ Unites group m

theorem findSome?_realDefault (group : List Finding) :
    group.findSome? realDefault = (group.filterMap (·.defaultValue)).find? (· ≠ "") := by
  induction group with
  | nil => rfl
  | cons f rest ih =>
    cases hd : f.defaultValue with
    | none => simpa [List.findSome?_cons, realDefault, hd] using ih
    | some d =>
      by_cases he : d = ""
      · simpa [List.findSome?_cons, realDefault, hd, he] using ih
      · simp [realDefault, hd, he]

theorem leadingSource_spec {first : Finding} {group : List Finding} (hf : first ∈ group) :
    (∃ f ∈ group, f.source = leadingSource first group) ∧
      ∀ f ∈ group, (leadingSource first group).rank ≤ f.source.rank := by
  unfold leadingSource
  cases hfind : Source.precedence.find? fun s => group.any fun f => f.source == s with
  | none =>
    have absent := List.find?_eq_none.mp hfind first.source (Source.mem_precedence _)
    exact absurd (List.any_eq_true.mpr ⟨first, hf, beq_self_eq_true first.source⟩) absent
  | some s =>
    obtain ⟨present, least⟩ := Source.find?_precedence hfind
    constructor
    · obtain ⟨f, hm, e⟩ := List.any_eq_true.mp present
      exact ⟨f, hm, eq_of_beq e⟩
    · intro f hm
      exact least f.source (List.any_eq_true.mpr ⟨f, hm, beq_self_eq_true f.source⟩)

/-- Two findings that unite one group are one finding. -/
theorem Unites.unique {group : List Finding} {m n : Finding} (hm : Unites group m)
    (hn : Unites group n) : m = n := by
  obtain ⟨f, hf, _⟩ := hm.source
  have name : m.name = n.name := (hm.name f hf).symm.trans (hn.name f hf)
  have files : m.files = n.files := hm.files.trans hn.files.symm
  have required : m.required = n.required := by
    rw [Bool.eq_iff_iff, hm.required, hn.required]
  have isPublic : m.isPublic = n.isPublic := by
    rw [Bool.eq_iff_iff, hm.isPublic, hn.isPublic]
  have default : m.defaultValue = n.defaultValue := hm.defaultValue.trans hn.defaultValue.symm
  have notes : m.notes = n.notes := hm.notes.trans hn.notes.symm
  have source : m.source = n.source := by
    obtain ⟨g, hg, eg⟩ := hm.source
    obtain ⟨k, hk, ek⟩ := hn.source
    apply Source.rank_injective
    have h₁ := hm.leads k hk
    have h₂ := hn.leads g hg
    rw [ek] at h₁
    rw [eg] at h₂
    exact Nat.le_antisymm h₁ h₂
  cases m
  cases n
  simp_all

theorem StandsFor.unique {group : List Finding} {m n : Finding} (hm : StandsFor group m)
    (hn : StandsFor group n) : m = n := by
  rcases hm with hm | ⟨len, hm⟩
  · rcases hn with hn | ⟨len, hn⟩
    · exact List.singleton_inj.mp (hm.symm.trans hn)
    · simp [hm] at len
  · rcases hn with hn | ⟨_, hn⟩
    · simp [hn] at len
    · exact hm.unique hn

theorem StandsFor.name {group : List Finding} {m f : Finding} (h : StandsFor group m)
    (hf : f ∈ group) : f.name = m.name := by
  rcases h with rfl | ⟨_, h⟩
  · rw [List.mem_singleton.mp hf]
  · exact h.name f hf

/-! ## The merge of one group -/

/-- The finding that unites a group under the name of its first member. -/
def united (first : Finding) (group : List Finding) : Finding where
  name := first.name
  source := leadingSource first group
  files := FileRef.dedupe (group.flatMap (·.files))
  required := group.any (·.required)
  defaultValue := group.findSome? realDefault
  isPublic := group.any (·.isPublic)
  notes := group.flatMap (·.notes)

theorem united_unites {first : Finding} {group : List Finding} (hf : first ∈ group)
    (same : ∀ f ∈ group, f.name = first.name) : Unites group (united first group) where
  name := same
  files := distinctBy_eq_eraseDupsBy _
  required := List.any_eq_true
  isPublic := List.any_eq_true
  defaultValue := findSome?_realDefault group
  notes := rfl
  source := (leadingSource_spec hf).1
  leads := (leadingSource_spec hf).2

theorem united_valid {first : Finding} {group : List Finding} (hf : first ∈ group)
    (valid : first.Valid) : (united first group).Valid := by
  refine ⟨?_, valid.2⟩
  intro none
  obtain ⟨r, hr⟩ := List.exists_mem_of_ne_nil _ valid.1
  have key : r.key ∈ (FileRef.dedupe (group.flatMap (·.files))).map FileRef.key :=
    mem_keys_distinctBy.mpr (List.mem_map_of_mem (List.mem_flatMap.mpr ⟨first, hf, hr⟩))
  rw [show FileRef.dedupe (group.flatMap (·.files)) = [] from none] at key
  cases key

/-- Valid findings of one name merge to the finding that stands for them. -/
theorem merge_standsFor {group : List Finding} {n : String} (ne : group ≠ [])
    (valid : ∀ f ∈ group, f.Valid) (same : ∀ f ∈ group, f.name = n) :
    ∃ m, merge group = .ok m ∧ StandsFor group m ∧ m.Valid := by
  match group with
  | [] => exact absurd rfl ne
  | [f] => exact ⟨f, rfl, Or.inl rfl, valid f List.mem_cons_self⟩
  | f :: g :: rest =>
    have hf : f ∈ f :: g :: rest := List.mem_cons_self
    have hsame : ∀ h ∈ f :: g :: rest, h.name = f.name := fun h hh =>
      (same h hh).trans (same f hf).symm
    have notMixed : ¬ ((f :: g :: rest).any fun h => h.name != f.name) = true := by
      rw [List.any_eq_true]
      rintro ⟨h, hh, differs⟩
      exact bne_iff_ne.mp differs (hsame h hh)
    have isValid := united_valid hf (valid f hf)
    refine ⟨united f (f :: g :: rest), ?_, Or.inr ⟨?_, united_unites hf hsame⟩, isValid⟩
    · show (if (f :: g :: rest).any fun h => h.name != f.name then _ else _) = _
      rw [if_neg notMixed]
      exact make_eq_ok isValid.1 isValid.2
    · exact Nat.le_add_left 2 rest.length

/-! ## The merge of a list -/

/-- The merge of a list: one finding for each of its names, in the order of names, which stands for
the findings of that name. -/
structure Summary (fs ms : List Finding) : Prop where
  ordered : ms.Pairwise fun m n => Collation.Before m.name n.name
  names : ∀ n, n ∈ ms.map (·.name) ↔ n ∈ fs.map (·.name)
  stands : ∀ m ∈ ms, StandsFor (named m.name fs) m

theorem Summary.nodup {fs ms : List Finding} (h : Summary fs ms) : (ms.map (·.name)).Nodup := by
  refine List.pairwise_map.mpr (h.ordered.imp ?_)
  intro m n before e
  exact Collation.Before.irrefl _ (e ▸ before)

theorem Summary.mem_iff {fs ms : List Finding} (h : Summary fs ms) (m : Finding) :
    m ∈ ms ↔ m.name ∈ fs.map (·.name) ∧ StandsFor (named m.name fs) m := by
  constructor
  · exact fun hm => ⟨(h.names _).mp (List.mem_map_of_mem hm), h.stands m hm⟩
  · rintro ⟨hname, hm⟩
    obtain ⟨k, hk, e⟩ := List.mem_map.mp ((h.names _).mpr hname)
    have hstands := h.stands k hk
    rw [show k.name = m.name from e] at hstands
    exact hstands.unique hm ▸ hk

theorem Summary.unique {fs ms ns : List Finding} (hm : Summary fs ms) (hn : Summary fs ns) :
    ms = ns :=
  Collation.eq_of_before hm.ordered hn.ordered fun f => (hm.mem_iff f).trans (hn.mem_iff f).symm

/-- Valid findings merge to their summary, and its members are valid. -/
theorem mergeAll_summary {fs : List Finding} (valid : ∀ f ∈ fs, f.Valid) :
    ∃ ms, mergeAll fs = .ok ms ∧ Summary fs ms ∧ ∀ m ∈ ms, m.Valid := by
  let names := distinctBy id (fs.map (·.name))
  have mem_names : ∀ n, n ∈ names ↔ n ∈ fs.map (·.name) := fun _ => mem_distinctBy_id
  obtain ⟨merged, hmerged, stands⟩ := mapM_forall₂ (g := fun n => merge (named n fs))
    (R := fun n m => n = m.name ∧ StandsFor (named n fs) m ∧ m.Valid) fun n hn => by
      have ne : named n fs ≠ [] := named_ne_nil.mpr ((mem_names n).mp hn)
      obtain ⟨m, hm, stands, isValid⟩ := merge_standsFor ne
        (fun f hf => valid f (mem_named.mp hf).1) (fun f hf => (mem_named.mp hf).2)
      obtain ⟨f, hf⟩ := List.exists_mem_of_ne_nil _ ne
      exact ⟨m, hm, (mem_named.mp hf).2.symm.trans (stands.name hf), stands, isValid⟩
  -- every merged finding has the name of its group, so the names tell the groups apart
  have hnames : names = merged.map (·.name) := by
    have h := List.forall₂_map_right_iff.mpr (stands.imp fun _ _ h => h.1)
    rwa [List.forall₂_eq_eq_eq] at h
  have each : ∀ m ∈ merged, StandsFor (named m.name fs) m ∧ m.Valid := by
    rw [hnames, List.forall₂_map_left_iff, List.forall₂_same] at stands
    exact fun m hm => (stands m hm).2
  refine ⟨Collation.sortBy name merged, ?_, ⟨?_, ?_, ?_⟩, ?_⟩
  · have hgroups : (groups fs).mapM merge = .ok merged := by
      show (names.map fun n => named n fs).mapM merge = _
      rw [List.mapM_map]
      exact hmerged
    rw [mergeAll, hgroups]
    rfl
  · apply Collation.sortBy_before
    · rw [← hnames]
      exact nodup_distinctBy_id _
    · intro m hm n hn
      exact Collation.key_injOn_valid (each m hm).2.2 (each n hn).2.2
  · intro n
    rw [← mem_names, hnames]
    exact ((Collation.sortBy_perm name merged).map (·.name)).mem_iff
  · intro m hm
    exact (each m (Collation.mem_sortBy.mp hm)).1
  · intro m hm
    exact (each m (Collation.mem_sortBy.mp hm)).2

theorem mergeAll_eq_ok_iff {fs ms : List Finding} (valid : ∀ f ∈ fs, f.Valid) :
    mergeAll fs = .ok ms ↔ Summary fs ms := by
  obtain ⟨ns, hns, summary, _⟩ := mergeAll_summary valid
  constructor
  · intro h
    rw [hns] at h
    cases h
    exact summary
  · intro h
    rw [hns, summary.unique h]

/-- Merging valid findings gives one finding for each of their names and no other, in strictly
increasing order of names; it stands for the findings of its name. -/
theorem mergeAll_one_for_each_name {fs : List Finding} (valid : ∀ f ∈ fs, f.Valid) :
    ∃ ms, mergeAll fs = .ok ms ∧
      (∀ n, (ms.map (·.name)).count n = if n ∈ fs.map (·.name) then 1 else 0) ∧
      (ms.Pairwise fun m n => Collation.Before m.name n.name) ∧
      ∀ m ∈ ms, StandsFor (named m.name fs) m := by
  obtain ⟨ms, hms, summary, _⟩ := mergeAll_summary valid
  refine ⟨ms, hms, ?_, summary.ordered, summary.stands⟩
  intro n
  by_cases hn : n ∈ fs.map (·.name)
  · rw [if_pos hn]
    exact List.count_eq_one_of_mem summary.nodup ((summary.names n).mpr hn)
  · rw [if_neg hn]
    exact List.count_eq_zero_of_not_mem fun h => hn ((summary.names n).mp h)

instance (f : Finding) : Decidable f.Valid := inferInstanceAs (Decidable (_ ∧ _))

/-- Two findings of one name about a third, with one place named twice. -/
theorem mergeAll_two_names :
    let fs : List Finding :=
      [⟨"ZETA", .dotenv, [⟨"/p/.env", 1, 1, none, none⟩], true, some "", false, ["n"]⟩,
       ⟨"ALPHA", .ast, [⟨"/p/a.js", 2, 1, none, none⟩], true, none, false, []⟩,
       ⟨"ZETA", .shell, [⟨"/p/.env", 1, 1, none, none⟩, ⟨"/p/x.sh", 3, 1, none, none⟩], false,
        some "z", true, ["n"]⟩]
    (∀ f ∈ fs, f.Valid) ∧ ∃ ms, mergeAll fs = .ok ms ∧
      (∀ n, (ms.map (·.name)).count n = if n ∈ fs.map (·.name) then 1 else 0) ∧
      (ms.Pairwise fun m n => Collation.Before m.name n.name) ∧
      ∀ m ∈ ms, StandsFor (named m.name fs) m := by
  intro fs
  have valid : ∀ f ∈ fs, f.Valid := by decide
  exact ⟨valid, mergeAll_one_for_each_name valid⟩

/-! ### Places -/

/-- The findings have a reference to the place. -/
def Mentions (fs : List Finding) (k : String × Nat × Nat) : Prop :=
  k ∈ (fs.flatMap (·.files)).map (·.key)

theorem mentions_iff {fs : List Finding} {k : String × Nat × Nat} :
    Mentions fs k ↔ ∃ f ∈ fs, ∃ r ∈ f.files, r.key = k := by
  simp only [Mentions, List.mem_map, List.mem_flatMap]
  constructor
  · rintro ⟨r, ⟨f, hf, hr⟩, e⟩
    exact ⟨f, hf, r, hr, e⟩
  · rintro ⟨f, hf, r, hr, e⟩
    exact ⟨r, ⟨f, hf, hr⟩, e⟩

theorem merge_mentions {group : List Finding} {m : Finding} (h : merge group = .ok m)
    (k : String × Nat × Nat) : Mentions [m] k ↔ Mentions group k := by
  unfold merge at h
  split at h
  · cases h
  · cases h
    exact Iff.rfl
  · simp only at h
    split at h
    · cases h
    · obtain ⟨source, rfl⟩ := make_cases h
      rw [Mentions, List.flatMap_singleton]
      exact mem_keys_distinctBy

theorem mem_groups {fs : List Finding} {f : Finding} :
    (∃ group ∈ groups fs, f ∈ group) ↔ f ∈ fs := by
  simp only [groups, List.mem_map]
  constructor
  · rintro ⟨group, ⟨n, _, rfl⟩, hf⟩
    exact List.mem_of_mem_filter hf
  · intro hf
    exact ⟨_, ⟨f.name, mem_distinctBy_id.mpr (List.mem_map_of_mem hf), rfl⟩,
      List.mem_filter.mpr ⟨hf, by simp⟩⟩

theorem mergeAll_mentions {fs ms : List Finding} (h : mergeAll fs = .ok ms)
    (k : String × Nat × Nat) : Mentions ms k ↔ Mentions fs k := by
  obtain ⟨merged, hmerged, h⟩ := bind_eq_ok.mp h
  cases h
  rw [mentions_iff, mentions_iff]
  constructor
  · rintro ⟨m, hm, place⟩
    obtain ⟨group, hgroup, e⟩ := mem_of_mapM hmerged (Collation.mem_sortBy.mp hm)
    have inside := (merge_mentions e k).mp (mentions_iff.mpr ⟨m, List.mem_singleton_self m, place⟩)
    obtain ⟨f, hf, place⟩ := mentions_iff.mp inside
    exact ⟨f, mem_groups.mp ⟨group, hgroup, hf⟩, place⟩
  · rintro ⟨f, hf, place⟩
    obtain ⟨group, hgroup, hfg⟩ := mem_groups.mpr hf
    obtain ⟨m, hm, e⟩ := mem_mapM hmerged hgroup
    have inside := (merge_mentions e k).mpr (mentions_iff.mpr ⟨f, hfg, place⟩)
    obtain ⟨m', hm', place⟩ := mentions_iff.mp inside
    rw [List.mem_singleton.mp hm'] at place
    exact ⟨m, Collation.mem_sortBy.mpr hm, place⟩

end Finding

end EnvCensus
