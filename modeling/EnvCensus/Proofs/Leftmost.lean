import Mathlib.Data.List.Pairwise
import Mathlib.Data.List.Perm.Basic

/-!
# Found from left to right

What is found from left to right is settled by what there is to find: nothing
that is found begins inside of anything else that is found, and whatever is left
out begins inside of something that is found. Only one list has both properties.
-/

namespace EnvCensus

variable {α : Type} {Valid : α → Prop} {Inside : α → α → Prop} {place : α → Nat}
  {xs ys : List α} {a b : α}

/-- The list has what is found from left to right, in the order of the places, of all that is
valid; `Inside a b` says that `a` begins inside of `b`. -/
structure FoundInOrder (Valid : α → Prop) (Inside : α → α → Prop) (place : α → Nat)
    (xs : List α) : Prop where
  valid : ∀ a ∈ xs, Valid a
  ordered : xs.Pairwise fun a b => place a < place b
  apart : xs.Pairwise fun a b => ¬ Inside b a
  others : ∀ a, Valid a → a ∈ xs ∨ ∃ b ∈ xs, Inside a b

variable (sooner : ∀ a b, Inside a b → place b < place a)

include sooner

theorem not_inside_of_pairwise (ordered : xs.Pairwise fun a b => place a < place b)
    (apart : xs.Pairwise fun a b => ¬ Inside b a) (ha : a ∈ xs) (hb : b ∈ xs) : ¬ Inside a b := by
  refine List.Pairwise.forall_of_forall_of_flip (fun a _ inside => ?_)
    (ordered.imp fun less inside => ?_) apart ha hb
  · exact absurd (sooner a a inside) (Nat.lt_irrefl _)
  · exact absurd (sooner _ _ inside) (Nat.lt_asymm less)

namespace FoundInOrder

/-- What one list has, every other has: by induction on the place, since what is left out begins
inside of something that both have. -/
theorem mem_of_mem (n : Nat) : ∀ {xs ys : List α}, FoundInOrder Valid Inside place xs →
    FoundInOrder Valid Inside place ys → ∀ a ∈ xs, place a = n → a ∈ ys := by
  induction n using Nat.strongRecOn with
  | ind n ih =>
    rintro xs ys hx hy a ha rfl
    rcases hy.others a (hx.valid a ha) with mem | ⟨b, hb, inside⟩
    · exact mem
    · have both : b ∈ xs := ih (place b) (sooner a b inside) hy hx b hb rfl
      exact absurd inside (not_inside_of_pairwise sooner hx.ordered hx.apart ha both)

theorem unique (hx : FoundInOrder Valid Inside place xs) (hy : FoundInOrder Valid Inside place ys) :
    xs = ys := by
  have nodup : ∀ {zs}, FoundInOrder Valid Inside place zs → zs.Nodup := fun h =>
    h.ordered.imp fun less => ne_of_apply_ne place (Nat.ne_of_lt less)
  have perm : xs.Perm ys := (List.perm_ext_iff_of_nodup (nodup hx) (nodup hy)).mpr fun a =>
    ⟨fun ha => mem_of_mem sooner (place a) hx hy a ha rfl,
      fun ha => mem_of_mem sooner (place a) hy hx a ha rfl⟩
  exact perm.eq_of_pairwise (fun _ _ _ _ less more => absurd less (Nat.lt_asymm more))
    hx.ordered hy.ordered

end FoundInOrder

end EnvCensus
