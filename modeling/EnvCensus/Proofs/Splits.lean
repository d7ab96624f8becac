import Mathlib.Data.List.Basic

/-!
# Splits of a list

Two ways to split one list at a member of it: either they are the same, or one of
the members stands before the other. A list of which not all members pass a test
is split at the first that fails.
-/

namespace EnvCensus

variable {α : Type} {p : α → Prop} {a b : α} {xs ys front front' rest rest' : List α}

/-- Two ways to pick a member of a list pick the same one, or one of them an earlier one. -/
theorem split_cases (h : front ++ a :: rest = front' ++ b :: rest') :
    (front' = front ∧ b = a ∧ rest' = rest) ∨
      (∃ between, front = front' ++ b :: between ∧ rest' = between ++ a :: rest) ∨
      ∃ between, front' = front ++ a :: between ∧ rest = between ++ b :: rest' := by
  obtain ⟨between, rfl, tail⟩ | ⟨between, rfl, tail⟩ := List.append_eq_append_iff.mp h
  · cases between with
    | nil =>
      cases tail
      exact Or.inl ⟨List.append_nil _, rfl, rfl⟩
    | cons a' between =>
      cases tail
      exact Or.inr (Or.inr ⟨between, rfl, rfl⟩)
  · cases between with
    | nil =>
      cases tail
      exact Or.inl ⟨(List.append_nil _).symm, rfl, rfl⟩
    | cons b' between =>
      cases tail
      exact Or.inr (Or.inl ⟨between, rfl, rfl⟩)

/-- A member that does not stand in the first part stands in the second. -/
theorem split_behind (absent : a ∉ xs) (h : xs ++ ys = front ++ a :: rest) :
    ∃ between, front = xs ++ between ∧ ys = between ++ a :: rest := by
  obtain ⟨between, rfl, tail⟩ | ⟨between, rfl, tail⟩ := List.append_eq_append_iff.mp h
  · exact ⟨between, rfl, tail⟩
  · cases between with
    | nil => exact ⟨[], by simp, tail.symm⟩
    | cons a' between =>
      cases tail
      exact absurd (by simp) absent

/-- A member that does not stand in the second part stands in the first. -/
theorem split_before (absent : a ∉ ys) (h : xs ++ ys = front ++ a :: rest) :
    ∃ between, xs = front ++ a :: between := by
  obtain ⟨between, rfl, tail⟩ | ⟨between, rfl, tail⟩ := List.append_eq_append_iff.mp h
  · exact absurd (tail ▸ by simp) absent
  · cases between with
    | nil => exact absurd (by rw [← List.nil_append ys, ← tail]; simp) absent
    | cons a' between =>
      cases tail
      exact ⟨between, rfl⟩

/-- Where not all members of a list pass, there is a first one that does not. -/
theorem exists_first (h : ¬ ∀ a ∈ xs, p a) :
    ∃ front a rest, xs = front ++ a :: rest ∧ (∀ b ∈ front, p b) ∧ ¬ p a := by
  induction xs with
  | nil => exact absurd (fun a mem => absurd mem List.not_mem_nil) h
  | cons a xs ih =>
    by_cases here : p a
    · have later : ¬ ∀ a ∈ xs, p a := fun all => h (List.forall_mem_cons.mpr ⟨here, all⟩)
      obtain ⟨front, b, rest, rfl, before, fails⟩ := ih later
      exact ⟨a :: front, b, rest, rfl, List.forall_mem_cons.mpr ⟨here, before⟩, fails⟩
    · exact ⟨[], a, xs, rfl, fun b mem => absurd mem List.not_mem_nil, here⟩

end EnvCensus
