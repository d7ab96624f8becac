import EnvCensus.Text.Utf8
import Mathlib.Data.List.Basic
import Mathlib.Data.Nat.Digits.Defs

/-!
# Texts without halves

A text without halves of characters in it has bytes. What is put together from
such texts and from characters that stand in for nothing is such a text again.
-/

namespace EnvCensus.Text

/-- Only the spare characters stand in for halves. -/
class LawfulHalves [Halves] : Prop where
  isSpare_of_isHalf {c : Char} : Halves.isHalf c = true → isSpare c = true

instance : LawfulHalves := ⟨id⟩

variable [Halves] {c : Char} {cs ds : List Char} {lines : List (List Char)}

/-- Nothing in the text stands in for a half. -/
def Whole (cs : List Char) : Prop := ∀ c ∈ cs, Halves.isHalf c = false

theorem isWhole_iff : isWhole cs = true ↔ Whole cs := by simp [isWhole, Whole]

@[simp] theorem whole_nil : Whole [] := nofun

@[simp] theorem whole_cons : Whole (c :: cs) ↔ Halves.isHalf c = false ∧ Whole cs :=
  List.forall_mem_cons

@[simp] theorem whole_append : Whole (cs ++ ds) ↔ Whole cs ∧ Whole ds := List.forall_mem_append

theorem Whole.of_subset (h : Whole cs) (sub : ds ⊆ cs) : Whole ds := fun c hc => h c (sub hc)

theorem whole_flatten : Whole lines.flatten ↔ ∀ line ∈ lines, Whole line := by
  simp only [Whole, List.mem_flatten]
  exact ⟨fun h line hline c hc => h c ⟨line, hline, hc⟩, fun h c ⟨line, hline, hc⟩ =>
    h line hline c hc⟩

theorem whole_flatMap {α : Type} {f : α → List Char} {xs : List α} :
    Whole (xs.flatMap f) ↔ ∀ x ∈ xs, Whole (f x) := by
  rw [List.flatMap_def, whole_flatten, List.forall_mem_map]

theorem whole_join {texts : List String} :
    Whole (String.join texts).toList ↔ ∀ s ∈ texts, Whole s.toList := by
  rw [String.toList_join, whole_flatMap]

/-- A text that is joined from others is whole when they are. -/
theorem whole_intercalate {separator : String} (between : Whole separator.toList)
    {texts : List String} :
    Whole (separator.intercalate texts).toList ↔ ∀ s ∈ texts, Whole s.toList := by
  induction texts with
  | nil => simp
  | cons s texts ih =>
    cases texts with
    | nil => simp
    | cons t texts =>
      rw [String.intercalate_cons_cons, String.toList_append, String.toList_append, whole_append,
        whole_append, ih, List.forall_mem_cons]
      simp [between]

section Lawful

variable [LawfulHalves]

theorem isHalf_eq_false (h : isSpare c = false) : Halves.isHalf c = false := by
  by_contra half
  rw [Bool.not_eq_false] at half
  rw [LawfulHalves.isSpare_of_isHalf half] at h
  cases h

/-- A text without spare characters is whole. -/
theorem whole_of_all (h : (cs.all fun c => !isSpare c) = true) : Whole cs := fun c hc =>
  isHalf_eq_false (by simpa using List.all_eq_true.mp h c hc)

theorem whole_replicate (n : Nat) (h : isSpare c = false) : Whole (List.replicate n c) := by
  intro d hd
  rw [(List.mem_replicate.mp hd).2]
  exact isHalf_eq_false h

omit [Halves] [LawfulHalves] in
theorem isSpare_eq_false_of_lt (h : c.toNat < firstSpare) : isSpare c = false := by
  simp [isSpare, Nat.not_le_of_lt h]

omit [Halves] [LawfulHalves] in
theorem isSpare_eq_false_of_isDigit (h : c.isDigit = true) : isSpare c = false := by
  have small : c.toNat ≤ 57 := by
    simp only [Char.isDigit, Bool.and_eq_true, decide_eq_true_eq] at h
    exact h.2
  exact isSpare_eq_false_of_lt (by rw [firstSpare]; omega)

theorem whole_nat (n : Nat) : Whole (toString n).toList := by
  intro c hc
  have digit : c ∈ Nat.toDigits 10 n := by
    rwa [show toString n = String.ofList (Nat.toDigits 10 n) from rfl, String.toList_ofList] at hc
  exact isHalf_eq_false (isSpare_eq_false_of_isDigit
    (Nat.isDigit_of_mem_toDigits (by decide) (by decide) digit))

theorem whole_int (n : Int) : Whole (toString n).toList := by
  cases n with
  | ofNat n => exact whole_nat n
  | negSucc n =>
    have sign : toString (Int.negSucc n) = "-" ++ toString (n + 1) := rfl
    rw [sign, String.toList_append, whole_append]
    exact ⟨whole_of_all (by decide), whole_nat _⟩

end Lawful

end EnvCensus.Text
