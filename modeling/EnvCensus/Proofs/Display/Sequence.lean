import EnvCensus.Display.Sequence
import EnvCensus.Proofs.Name
import EnvCensus.Proofs.Splits

/-!
# What is left without control sequences

A control sequence has none of the characters that quote, comment or bind in a
declaration, so a text without its sequences is cut at such a character where the
text itself is.
-/

namespace EnvCensus.Display

variable {c : Char} {cs order rest : List Char}

/-- The text is one control sequence. -/
def IsSequence (order : List Char) : Prop :=
  ∃ figures letter, (∀ f ∈ figures, isFigure f = true) ∧ letter.isAlpha = true ∧
    order = '\x1b' :: '[' :: (figures ++ [letter])

theorem not_isFigure_of_isAlpha (h : c.isAlpha = true) : isFigure c = false := by
  by_contra figure
  simp only [isFigure, Bool.not_eq_false, Bool.or_eq_true, beq_iff_eq] at figure
  rcases figure with (digit | rfl) | rfl
  · obtain ⟨-, low⟩ := Name.isDigit_iff.mp digit
    rcases Name.isAlpha_iff.mp h with ⟨high, -⟩ | ⟨high, -⟩
    · exact absurd (high.trans low) (by decide)
    · exact absurd (high.trans low) (by decide)
  · exact absurd h (by decide)
  · exact absurd h (by decide)

theorem afterSequence?_eq_some : afterSequence? cs = some rest ↔
    ∃ order, IsSequence order ∧ cs = order ++ rest := by
  constructor
  · intro after
    unfold afterSequence? at after
    split at after
    · rename_i tail
      have figures : ∀ f ∈ tail.takeWhile isFigure, isFigure f = true := fun f hf =>
        List.mem_takeWhile_imp hf
      split at after
      · rename_i letter behind cut
        split at after
        · rename_i alpha
          cases after
          refine ⟨_, ⟨_, letter, figures, alpha, rfl⟩, ?_⟩
          rw [List.cons_append, List.cons_append, List.append_assoc, List.singleton_append, ← cut,
            List.takeWhile_append_dropWhile]
        · cases after
      · cases after
    · cases after
  · rintro ⟨_, ⟨figures, letter, run, alpha, rfl⟩, rfl⟩
    have stop : ∀ c ∈ (letter :: rest).head?, isFigure c = false := by
      simpa using not_isFigure_of_isAlpha alpha
    have cut : (figures ++ letter :: rest).dropWhile isFigure = letter :: rest :=
      (Text.takeWhile_run run stop).2
    simp only [List.cons_append, List.append_assoc, List.nil_append, afterSequence?, cut, alpha,
      if_true]

/-! ### The run through a text -/

@[simp] theorem withoutSequences_nil : withoutSequences [] = [] := by
  rw [withoutSequences]

theorem withoutSequences_of_some (after : afterSequence? (c :: cs) = some rest) :
    withoutSequences (c :: cs) = withoutSequences rest := by
  rw [withoutSequences]
  split
  · rename_i found
    cases after.symm.trans found
    rfl
  · rename_i none
    cases after.symm.trans none

theorem withoutSequences_of_none (none : afterSequence? (c :: cs) = none) :
    withoutSequences (c :: cs) = c :: withoutSequences cs := by
  rw [withoutSequences]
  split
  · rename_i found
    cases none.symm.trans found
  · rfl

theorem withoutSequences_sublist (cs : List Char) : (withoutSequences cs).Sublist cs := by
  induction cs using withoutSequences.induct with
  | case1 => rw [withoutSequences_nil]
  | case2 c cs rest after _ ih =>
    obtain ⟨order, -, whole⟩ := afterSequence?_eq_some.mp after
    rw [withoutSequences_of_some after, whole]
    exact ih.trans (List.sublist_append_right order rest)
  | case3 c cs none ih =>
    rw [withoutSequences_of_none none]
    exact ih.cons_cons c

/-- Every sequence begins with an escape. -/
theorem afterSequence?_eq_none (other : c ≠ '\x1b') : afterSequence? (c :: cs) = none := by
  refine Option.eq_none_iff_forall_ne_some.mpr fun rest after => ?_
  obtain ⟨_, ⟨figures, letter, -, -, rfl⟩, whole⟩ := afterSequence?_eq_some.mp after
  exact other (List.cons.inj whole).1

theorem withoutSequences_of_no_escape (plain : '\x1b' ∉ cs) : withoutSequences cs = cs := by
  induction cs with
  | nil => exact withoutSequences_nil
  | cons c cs ih =>
    obtain ⟨other, plain⟩ := not_or.mp fun mem => plain (List.mem_cons.mpr mem)
    rw [withoutSequences_of_none (afterSequence?_eq_none (Ne.symm other)), ih plain]

/-! ### Characters that stand in no sequence -/

/-- The character stands in no control sequence. -/
def Inert (c : Char) : Prop :=
  c ≠ '\x1b' ∧ c ≠ '[' ∧ isFigure c = false ∧ c.isAlpha = false

instance (c : Char) : Decidable (Inert c) := inferInstanceAs (Decidable (_ ∧ _))

theorem Inert.not_mem (inert : Inert c) (sequence : IsSequence order) : c ∉ order := by
  obtain ⟨figures, letter, run, alpha, rfl⟩ := sequence
  obtain ⟨escape, bracket, figure, other⟩ := inert
  have outside : c ∉ figures := by
    intro mem
    rw [run c mem] at figure
    cases figure
  have different : c ≠ letter := by
    rintro rfl
    rw [alpha] at other
    cases other
  simp [escape, bracket, outside, different]

/-- A sequence ends before an inert character or begins behind it. -/
theorem afterSequence?_append (inert : Inert c) (ys : List Char) :
    afterSequence? (cs ++ c :: ys) = (afterSequence? cs).map (· ++ c :: ys) := by
  cases after : afterSequence? cs with
  | some rest =>
    obtain ⟨order, sequence, rfl⟩ := afterSequence?_eq_some.mp after
    exact afterSequence?_eq_some.mpr ⟨order, sequence, List.append_assoc _ _ _⟩
  | none =>
    refine Option.eq_none_iff_forall_ne_some.mpr fun rest found => ?_
    obtain ⟨order, sequence, whole⟩ := afterSequence?_eq_some.mp found
    obtain ⟨between, front, -⟩ := split_behind (inert.not_mem sequence) whole.symm
    cases after.symm.trans (afterSequence?_eq_some.mpr ⟨order, sequence, front⟩)

/-- What stands before an inert character and what stands behind it are printed apart. -/
theorem withoutSequences_append (inert : Inert c) (xs ys : List Char) :
    withoutSequences (xs ++ c :: ys) = withoutSequences xs ++ c :: withoutSequences ys := by
  induction xs using withoutSequences.induct with
  | case1 =>
    rw [withoutSequences_nil]
    exact withoutSequences_of_none (afterSequence?_eq_none inert.1)
  | case2 x xs rest after _ ih =>
    have further : afterSequence? (x :: (xs ++ c :: ys)) = some (rest ++ c :: ys) := by
      have seen := @afterSequence?_append c (x :: xs) inert ys
      rwa [after] at seen
    rw [List.cons_append, withoutSequences_of_some further, withoutSequences_of_some after, ih]
  | case3 x xs none ih =>
    have further : afterSequence? (x :: (xs ++ c :: ys)) = Option.none := by
      have seen := @afterSequence?_append c (x :: xs) inert ys
      rwa [none] at seen
    rw [List.cons_append, withoutSequences_of_none further, withoutSequences_of_none none, ih,
      List.cons_append]

/-- No inert character is lost. -/
theorem count_withoutSequences (inert : Inert c) (cs : List Char) :
    (withoutSequences cs).count c = cs.count c := by
  induction cs using withoutSequences.induct with
  | case1 => rw [withoutSequences_nil]
  | case2 d cs rest after _ ih =>
    obtain ⟨order, sequence, whole⟩ := afterSequence?_eq_some.mp after
    rw [withoutSequences_of_some after, ih, whole, List.count_append,
      List.count_eq_zero_of_not_mem (inert.not_mem sequence), Nat.zero_add]
  | case3 d cs none ih =>
    rw [withoutSequences_of_none none, List.count_cons, List.count_cons, ih]

end EnvCensus.Display
