import EnvCensus.Finding.Merge
import Mathlib.Data.List.Basic

/-!
# First elements for each key

A list is reduced to the first element for each key. What is kept stands in
the order of the list, no key is kept twice and none is lost; reducing a part
of a list beforehand changes nothing.
-/

namespace EnvCensus

variable {α κ : Type} [BEq κ] [LawfulBEq κ] {key : α → κ}

omit [LawfulBEq κ] in
theorem distinctBy_sublist (xs : List α) : (distinctBy key xs).Sublist xs := by
  induction xs with
  | nil => exact List.Sublist.refl _
  | cons x xs ih => exact (List.filter_sublist.trans ih).cons_cons x

/-- A choice by key may be made before or after the reduction. -/
theorem distinctBy_filter (p : κ → Bool) (xs : List α) :
    distinctBy key (xs.filter fun x => p (key x)) = (distinctBy key xs).filter fun x => p (key x) := by
  induction xs with
  | nil => rfl
  | cons x xs ih =>
    by_cases h : p (key x) = true
    · simp only [List.filter_cons, h, if_true, distinctBy, ih, List.filter_filter]
      congr 1
      exact List.filter_congr fun y _ => Bool.and_comm _ _
    · simp only [List.filter_cons, h, Bool.false_eq_true, if_false, distinctBy, ih,
        List.filter_filter]
      refine List.filter_congr fun y _ => ?_
      by_cases e : key y = key x
      · simp [e, h]
      · simp [e]

theorem mem_keys_distinctBy {k : κ} {xs : List α} :
    k ∈ (distinctBy key xs).map key ↔ k ∈ xs.map key := by
  induction xs with
  | nil => exact Iff.rfl
  | cons x xs ih =>
    by_cases h : k = key x
    · simp [distinctBy, h]
    · have later : k ∈ ((distinctBy key xs).filter fun y => key y != key x).map key ↔
          k ∈ (distinctBy key xs).map key := by
        simp only [List.mem_map, List.mem_filter, bne_iff_ne]
        constructor
        · rintro ⟨y, ⟨hy, _⟩, hk⟩
          exact ⟨y, hy, hk⟩
        · rintro ⟨y, hy, hk⟩
          exact ⟨y, ⟨hy, fun e => h (hk.symm.trans e)⟩, hk⟩
      simp only [distinctBy, List.map_cons, List.mem_cons, later, ih]

theorem mem_distinctBy_id {x : κ} {xs : List κ} : x ∈ distinctBy id xs ↔ x ∈ xs := by
  have keys : x ∈ (distinctBy id xs).map id ↔ x ∈ xs.map id := mem_keys_distinctBy
  simpa only [List.map_id] using keys

theorem nodup_keys_distinctBy (xs : List α) : ((distinctBy key xs).map key).Nodup := by
  induction xs with
  | nil => exact List.nodup_nil
  | cons x xs ih =>
    rw [distinctBy, List.map_cons, List.nodup_cons]
    refine ⟨?_, (List.filter_sublist.map key).nodup ih⟩
    intro h
    obtain ⟨y, hy, e⟩ := List.mem_map.mp h
    simp [e] at hy

theorem nodup_distinctBy_id (xs : List κ) : (distinctBy id xs).Nodup := by
  have keys : ((distinctBy id xs).map id).Nodup := nodup_keys_distinctBy xs
  rwa [List.map_id] at keys

/-- What is kept stands in the order of first occurrences. -/
theorem pairwise_idxOf_distinctBy_id (xs : List κ) :
    (distinctBy id xs).Pairwise fun x y => xs.idxOf x < xs.idxOf y := by
  induction xs with
  | nil => exact List.Pairwise.nil
  | cons x xs ih =>
    have later : ∀ y ∈ (distinctBy id xs).filter fun y => id y != id x,
        (x :: xs).idxOf y = xs.idxOf y + 1 := by
      intro y hy
      exact List.idxOf_cons_ne xs (Ne.symm (bne_iff_ne.mp (List.mem_filter.mp hy).2))
    refine List.pairwise_cons.mpr ⟨fun y hy => ?_, (ih.filter _).imp_of_mem ?_⟩
    · rw [later y hy, List.idxOf_cons_self]
      exact Nat.succ_pos _
    · intro y z hy hz before
      rw [later y hy, later z hz]
      exact Nat.succ_lt_succ before

/-- Key by key, a list has the elements that it has. -/
theorem flatMap_filter_perm {ks : List κ} (nodup : ks.Nodup) {xs : List α}
    (all : ∀ x ∈ xs, key x ∈ ks) :
    (ks.flatMap fun k => xs.filter fun x => key x == k).Perm xs := by
  induction xs with
  | nil => simp
  | cons x xs ih =>
    obtain ⟨first, others⟩ := List.forall_mem_cons.mp all
    obtain ⟨before, after, rfl⟩ := List.append_of_mem first
    obtain ⟨fresh, unlike⟩ : key x ∉ before ∧ key x ∉ after := by
      have apart := List.perm_middle.nodup nodup
      rw [List.nodup_cons, List.mem_append, not_or] at apart
      exact apart.1
    have skip : ∀ ks : List κ, key x ∉ ks →
        (ks.flatMap fun k => (x :: xs).filter fun y => key y == k) =
          ks.flatMap fun k => xs.filter fun y => key y == k := by
      intro ks absent
      refine List.flatMap_congr fun k hk => List.filter_cons_of_neg ?_
      rw [beq_iff_eq]
      rintro rfl
      exact absent hk
    have ih := ih others
    rw [List.flatMap_append, List.flatMap_cons] at ih ⊢
    rw [skip before fresh, skip after unlike,
      List.filter_cons_of_pos (p := fun y => key y == key x) (beq_self_eq_true _),
      List.cons_append]
    exact List.perm_middle.trans (ih.cons x)

/-- The reduction is the library's removal of later elements with the key of an earlier one. -/
theorem distinctBy_eq_eraseDupsBy (xs : List α) :
    distinctBy key xs = xs.eraseDupsBy fun x y => key x == key y := by
  -- both go on with a filtered list, which is no tail: the induction is on the length
  induction hn : xs.length using Nat.strongRecOn generalizing xs with
  | ind n ih =>
    cases xs with
    | nil => rfl
    | cons x xs =>
      have other : (xs.filter fun y => (key y == key x) = false) =
          xs.filter fun y => (fun k => k != key x) (key y) := by
        refine List.filter_congr fun y _ => ?_
        by_cases e : key y = key x
        · simp [e]
        · simp [e]
      have shorter : (xs.filter fun y => (fun k => k != key x) (key y)).length < n := by
        subst hn
        exact Nat.lt_succ_of_le (List.length_filter_le _ _)
      rw [distinctBy, List.eraseDupsBy_cons, other, ← ih _ shorter _ rfl,
        distinctBy_filter fun k => k != key x]

/-- The first result that passes is the first of the results that pass. -/
theorem findSome?_filter {β : Type} (p : β → Bool) (g : α → Option β) (xs : List α) :
    (xs.findSome? fun x => (g x).filter p) = (xs.filterMap g).find? p := by
  rw [← List.head?_filterMap, ← List.filter_filterMap, List.head?_filter]

/-! ## Lists in parts -/

theorem distinctBy_append (xs ys : List α) :
    distinctBy key (xs ++ ys) =
      distinctBy key xs ++ (distinctBy key ys).filter fun y => !(xs.map key).contains (key y) := by
  induction xs with
  | nil => simp [distinctBy]
  | cons x xs ih =>
    rw [List.cons_append, distinctBy, ih, distinctBy, List.filter_append, List.filter_filter,
      List.cons_append]
    congr 2
    refine List.filter_congr fun y _ => ?_
    rw [List.map_cons, List.contains_cons, Bool.not_or]
    rfl

theorem distinctBy_id_concat (xs : List κ) (x : κ) :
    distinctBy id (xs ++ [x]) = distinctBy id xs ++ if x ∈ xs then [] else [x] := by
  rw [distinctBy_append, List.map_id]
  congr 1
  by_cases known : x ∈ xs
  · simp [distinctBy, known]
  · simp [distinctBy, known]

/-- Lists with equal reductions may replace each other in front of a list. -/
theorem distinctBy_append_congr {xs xs' ys ys' : List α}
    (hx : distinctBy key xs = distinctBy key xs') (hy : distinctBy key ys = distinctBy key ys') :
    distinctBy key (xs ++ ys) = distinctBy key (xs' ++ ys') := by
  rw [distinctBy_append, distinctBy_append, hx, hy]
  congr 1
  refine List.filter_congr fun y _ => ?_
  have same : ∀ k, k ∈ xs.map key ↔ k ∈ xs'.map key := fun k => by
    rw [← mem_keys_distinctBy, hx, mem_keys_distinctBy]
  congr 1
  rw [Bool.eq_iff_iff, List.contains_iff_mem, List.contains_iff_mem]
  exact same (key y)

theorem distinctBy_of_nodup {xs : List α} (h : (xs.map key).Nodup) : distinctBy key xs = xs := by
  induction xs with
  | nil => rfl
  | cons x xs ih =>
    rw [List.map_cons, List.nodup_cons] at h
    rw [distinctBy, ih h.2, List.filter_eq_self.mpr]
    intro y hy
    have hne : key y ≠ key x := fun e => h.1 (e ▸ List.mem_map_of_mem hy)
    simpa using hne

/-- In a list of parts, each without repetition, an element stays just when no earlier part has
its key. -/
theorem mem_distinctBy_flatMap {β : Type} {g : β → List α} {bs : List β} {x : α}
    (once : ∀ b ∈ bs, ((g b).map key).Nodup) :
    x ∈ distinctBy key (bs.flatMap g) ↔
      ∃ before b after, bs = before ++ b :: after ∧ x ∈ g b ∧
        ∀ c ∈ before, key x ∉ (g c).map key := by
  induction bs with
  | nil => simp [distinctBy]
  | cons b bs ih =>
    obtain ⟨first, others⟩ := List.forall_mem_cons.mp once
    rw [List.flatMap_cons, distinctBy_append, distinctBy_of_nodup first, List.mem_append,
      List.mem_filter, ih others, Bool.not_eq_true', ← Bool.not_eq_true, List.contains_iff_mem]
    constructor
    · rintro (here | ⟨⟨before, c, after, rfl, there, unseen⟩, new⟩)
      · exact ⟨[], b, bs, rfl, here, by simp⟩
      · exact ⟨b :: before, c, after, rfl, there, List.forall_mem_cons.mpr ⟨new, unseen⟩⟩
    · rintro ⟨before, c, after, split, there, unseen⟩
      cases before with
      | nil =>
        cases split
        exact Or.inl there
      | cons b' before =>
        cases split
        obtain ⟨new, unseen⟩ := List.forall_mem_cons.mp unseen
        exact Or.inr ⟨⟨before, c, after, rfl, there, unseen⟩, new⟩

theorem distinctBy_distinctBy (xs : List α) :
    distinctBy key (distinctBy key xs) = distinctBy key xs :=
  distinctBy_of_nodup (nodup_keys_distinctBy xs)

/-- The first element with a key is kept. -/
theorem find?_distinctBy (k : κ) (xs : List α) :
    (distinctBy key xs).find? (fun x => key x == k) = xs.find? fun x => key x == k := by
  induction xs with
  | nil => rfl
  | cons x xs ih =>
    by_cases same : key x = k
    · have found : (key x == k) = true := beq_iff_eq.mpr same
      simp only [distinctBy, List.find?_cons, found]
    · have passed : (key x == k) = false := beq_false_of_ne same
      simp only [distinctBy, List.find?_cons, passed, ← ih, List.find?_filter]
      congr 1
      funext y
      by_cases hit : key y = k
      · simp [hit, Ne.symm same]
      · simp [hit]

end EnvCensus
