import EnvCensus.Disk.Route
import EnvCensus.Proofs.Disk

/-!
# The order of entries

Two disks may differ in nothing but the order in which their folders list what
they hold. The same then stands at every place of both, and paths settle on the
same places.
-/

namespace EnvCensus.Disk

variable {d d' : Disk}

/-- The folders hold the same, in whatever order. -/
inductive Rearranged : Disk → Disk → Prop
  | file (bytes : List UInt8) : Rearranged (file bytes) (file bytes)
  | link (target : String) : Rearranged (link target) (link target)
  | folder {es es' : List (String × Disk)} (names : (es.map (·.1)).Perm (es'.map (·.1)))
      (within : ∀ {n c c'}, (n, c) ∈ es → (n, c') ∈ es' → Rearranged c c') :
      Rearranged (folder es) (folder es')

theorem Rearranged.symm (h : Rearranged d d') : Rearranged d' d := by
  induction h with
  | file bytes => exact .file bytes
  | link target => exact .link target
  | folder names within ih => exact .folder names.symm fun hc hc' => ih hc' hc

theorem Rearranged.child? (h : Rearranged d d') (name : String) :
    Option.Rel Rearranged (d.child? name) (d'.child? name) := by
  cases h with
  | file bytes => exact .none
  | link target => exact .none
  | folder names within =>
    rename_i es es'
    cases hc : (Disk.folder es).child? name with
    | none =>
      have absent := mt names.mem_iff.mpr (child?_eq_none.mp hc)
      rw [child?_eq_none.mpr absent]
      exact .none
    | some c =>
      cases hc' : (Disk.folder es').child? name with
      | none =>
        have absent := mt names.mem_iff.mp (child?_eq_none.mp hc')
        rw [child?_eq_none.mpr absent] at hc
        cases hc
      | some c' => exact .some (within (mem_of_child? hc) (mem_of_child? hc'))

theorem Rearranged.at? (h : Rearranged d d') (p : Place) :
    Option.Rel Rearranged (d.at? p) (d'.at? p) := by
  induction p generalizing d d' with
  | nil => exact .some h
  | cons name p ih =>
    have below := h.child? name
    simp only [Disk.at?]
    revert below
    generalize d.child? name = c, d'.child? name = c'
    rintro (below | _)
    · exact ih below
    · exact .none

theorem Rearranged.named (h : Rearranged d d') (named : Named d) : Named d' := by
  induction h with
  | file bytes => exact .file bytes
  | link target => exact .link target
  | folder names within ih =>
    refine .folder (names.nodup_iff.mp named.different) ?_ ?_
    · intro e he
      obtain ⟨o, ho, same⟩ := List.mem_map.mp (names.mem_iff.mpr (List.mem_map_of_mem he))
      exact same ▸ named.proper o ho
    · rintro ⟨n, c'⟩ he
      obtain ⟨⟨m, c⟩, ho, rfl⟩ := List.mem_map.mp (names.mem_iff.mpr (List.mem_map_of_mem he))
      exact ih ho he (named.within _ ho)

/-- What is no folder stands at a place of both disks or of neither. -/
theorem Rearranged.at?_leaf (h : Rearranged d d') {p : Place} {e : Disk}
    (leaf : e.isFolder = false) : d'.at? p = some e ↔ d.at? p = some e := by
  have here := h.at? p
  revert here
  generalize d.at? p = x, d'.at? p = x'
  rintro (below | _)
  · cases below with
    | file bytes => exact Iff.rfl
    | link target => exact Iff.rfl
    | folder names within =>
      have other : ∀ {es}, some (Disk.folder es) ≠ some e := by
        rintro es same
        cases same
        cases leaf
      exact iff_of_false other other
  · exact Iff.rfl

theorem Rearranged.at?_folder (h : Rearranged d d') {p : Place} {es : List (String × Disk)}
    (there : d.at? p = some (.folder es)) : ∃ es', d'.at? p = some (.folder es') := by
  have here := h.at? p
  rw [there] at here
  revert here
  generalize d'.at? p = x'
  rintro (below | _)
  cases below with
  | folder => exact ⟨_, rfl⟩

/-- Paths settle as the links on the way tell, and these are the same. -/
theorem Rearranged.settleFrom (h : Rearranged d d') (links : Nat) (place : Place)
    (names : List String) : d'.settleFrom links place names = d.settleFrom links place names := by
  have sameLink : ∀ {p t}, d'.at? p = some (Disk.link t) ↔ d.at? p = some (Disk.link t) :=
    h.at?_leaf rfl
  fun_induction d.settleFrom links place names with
  | case1 => rw [Disk.settleFrom]
  | case2 links place name rest climbs ih =>
    rw [Disk.settleFrom.eq_def]
    simp only [climbs, if_true, ih]
  | case3 place name rest down target link =>
    rw [Disk.settleFrom.eq_def]
    simp only [down, Bool.false_eq_true, if_false, sameLink.mpr link]
  | case4 place name rest down target links link ih =>
    rw [Disk.settleFrom.eq_def]
    simp only [down, Bool.false_eq_true, if_false, sameLink.mpr link]
    exact ih
  | case5 place name rest down links noLink noLink' ih =>
    rw [Disk.settleFrom.eq_def]
    simp only [down, Bool.false_eq_true, if_false]
    split
    · rename_i link
      exact (noLink _ (sameLink.mp link) rfl).elim
    · rename_i link
      exact (noLink' _ _ (sameLink.mp link) rfl).elim
    · exact ih

theorem Rearranged.settle (h : Rearranged d d') (here : Place) (path : String) :
    d'.settle here path = d.settle here path :=
  h.settleFrom _ _ _

end EnvCensus.Disk
