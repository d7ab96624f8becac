import EnvCensus.Number.Binary64
import Mathlib.Data.List.TakeWhile

/-!
# Written numbers

Zero reads back as no other number, so the fewest digits that stand for a number
other than zero are not zeros only, and some of them are left when the zeros at
their end are dropped. Every number has a text.
-/

namespace EnvCensus.Binary64

variable {significand count digits : Nat} {exponent power lead : Int} {ds : List Char}

/-- Zero does not round to a number that is not zero: what does is bounded away from it. -/
theorem readsBack_zero (pos : 0 < significand) :
    readsBack significand exponent 0 power = false := by
  have lower : 0 < if (significand == Nat.pow 2 52 && decide (exponent > leastExponent)) = true
      then 4 * significand - 1 else 4 * significand - 2 := by
    split <;> omega
  have scale : 0 < if power ≥ 0 then 1 else Nat.pow 10 (-power).toNat := by
    split
    · exact Nat.one_pos
    · exact Nat.pow_pos (by decide)
  have unit : 0 < (if exponent - 2 ≥ 0 then (0, Nat.pow 2 (exponent - 2).toNat) else (0, 1)).2 := by
    split
    · exact Nat.pow_pos (by decide)
    · exact Nat.one_pos
  have left : (if exponent - 2 ≥ 0 then (0, Nat.pow 2 (exponent - 2).toNat) else (0, 1)).1 = 0 := by
    split <;> rfl
  have low := Nat.mul_pos (Nat.mul_pos lower unit) scale
  unfold readsBack
  simp only [Nat.zero_mul, ite_self, left]
  split
  · rw [decide_eq_false (Nat.not_le_of_lt low), Bool.false_and]
  · rw [decide_eq_false (Nat.not_lt_zero _), Bool.false_and]

/-- The digits that are chosen read back. -/
theorem readsBack_of_withDigits?
    (h : withDigits? significand exponent count = some (digits, power)) :
    readsBack significand exponent digits power = true := by
  unfold withDigits? at h
  generalize ratioOf significand exponent = ratio at h
  obtain ⟨num, den⟩ := ratio
  simp only at h
  generalize decimalExponent num den - (count : Int) + 1 = chosen at h
  generalize (if chosen ≥ 0 then (num, den * Nat.pow 10 chosen.toNat)
    else (num * Nat.pow 10 (-chosen).toNat, den)) = quotient at h
  obtain ⟨n, d⟩ := quotient
  simp only at h
  split at h
  · rename_i fits
    cases h
    simp only [Bool.and_eq_true] at fits
    exact fits.1
  · split at h
    · rename_i fits
      cases h
      exact fits
    · cases h

theorem shortestFrom_pos (pos : 0 < significand) (fuel count : Nat) :
    0 < (shortestFrom significand exponent fuel count).1 := by
  induction fuel generalizing count with
  | zero => exact pos
  | succ fuel ih =>
    rw [shortestFrom]
    split
    · rename_i r h
      rw [Nat.pos_iff_ne_zero]
      intro zero
      have reads := readsBack_of_withDigits? h
      rw [zero, readsBack_zero pos] at reads
      cases reads
    · exact ih (count + 1)

/-- Not all digits of a number other than zero are zeros. -/
theorem dropTrailingZeros_ne_nil (pos : 0 < digits) :
    dropTrailingZeros (Nat.toDigits 10 digits) ≠ [] := by
  intro none
  have zeros : ∀ c ∈ Nat.toDigits 10 digits, c = '0' := by
    simpa using List.dropWhile_eq_nil_iff.mp (List.reverse_eq_nil_iff.mp none)
  have read := Nat.ofDigitChars_ten_toDigits (n := digits)
  rw [List.eq_replicate_of_mem zeros, Nat.ofDigitChars_replicate_zero] at read
  omega

theorem digitsText_ne_nil (some : ds ≠ []) : digitsText ds lead ≠ [] := by
  unfold digitsText
  split
  · split
    · simp
    · simp only
      split
      · simp
      · simp
  · cases ds with
    | nil => exact absurd rfl some
    | cons d rest => simp

/-- A number has a text. -/
theorem text_ne_nil (x : Binary64) : x.text ≠ [] := by
  cases x with
  | nan => decide
  | infinite negative => cases negative <;> decide
  | finite negative significand exponent =>
    rw [text]
    split
    · simp
    · rename_i nonzero
      have pos : 0 < significand := Nat.pos_of_ne_zero (by simpa using nonzero)
      exact List.append_ne_nil_of_right_ne_nil _
        (digitsText_ne_nil (dropTrailingZeros_ne_nil (shortestFrom_pos pos 17 1)))

end EnvCensus.Binary64
