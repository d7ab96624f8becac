import EnvCensus.Text.Blank
import EnvCensus.Text.Lines

/-!
# Lines of a text

A line feed parts the lines before it from the lines after it, whatever they
are. A text without boundaries is one line, and what stands before the first
boundary of a text belongs to its first line.
-/

namespace EnvCensus.Text

variable {c : Char} {cs xs ys line rest : List Char}

/-- No boundary stands in the text. -/
def Unbroken (cs : List Char) : Prop := ∀ c ∈ cs, isLineBreak c = false

instance (cs : List Char) : Decidable (Unbroken cs) :=
  List.decidableBAll (fun c => isLineBreak c = false) cs

theorem Unbroken.no_feed (h : Unbroken cs) : '\n' ∉ cs := fun feed =>
  absurd (h _ feed) (by decide)

theorem isBlank_of_isLineBreak (h : isLineBreak c = true) : isBlank c = true := by
  simp only [isLineBreak, isBlank, Bool.or_eq_true, Bool.and_eq_true, decide_eq_true_eq,
    beq_iff_eq] at h ⊢
  omega

theorem unbroken_append : Unbroken (xs ++ ys) ↔ Unbroken xs ∧ Unbroken ys := List.forall_mem_append

theorem lines_of_boundary (h : splitLine cs = (line, some rest)) : lines cs = line :: lines rest := by
  rw [lines]
  split
  · rename_i e
    cases h.symm.trans e
    rfl
  · rename_i e
    cases h.symm.trans e

theorem lines_of_no_boundary (h : splitLine cs = (line, none)) :
    lines cs = if line.isEmpty then [] else [line] := by
  rw [lines]
  split
  · rename_i e
    cases h.symm.trans e
  · rename_i e
    cases h.symm.trans e
    rfl

@[simp] theorem lines_nil : lines [] = [] := by
  have none : splitLine [] = ([], none) := rfl
  rw [lines_of_no_boundary none]
  rfl

/-- A boundary of two characters ends a line. -/
theorem lines_return_feed (rest : List Char) : lines ('\r' :: '\n' :: rest) = [] :: lines rest :=
  lines_of_boundary rfl

/-- A boundary of one character ends a line. -/
theorem lines_boundary (hc : isLineBreak c = true) (single : c = '\r' → rest.head? ≠ some '\n') :
    lines (c :: rest) = [] :: lines rest := by
  refine lines_of_boundary ?_
  unfold splitLine
  split
  · rename_i e
    cases e
  · rename_i e
    cases e
    exact absurd rfl (single rfl)
  · rename_i e
    cases e
    rw [if_pos hc]

/-- What is no boundary stands first in the first line. -/
theorem lines_letter (hc : isLineBreak c = false) (rest : List Char) :
    lines (c :: rest) = (c :: (lines rest).headD []) :: (lines rest).tail := by
  have split_cons : splitLine (c :: rest) = (c :: (splitLine rest).1, (splitLine rest).2) := by
    rw [splitLine.eq_def]
    split
    · rename_i e
      cases e
    · rename_i e
      cases e
      cases hc
    · rename_i e
      cases e
      rw [if_neg (by rw [hc]; exact Bool.false_ne_true)]
  cases after : splitLine rest with
  | mk line next =>
    rw [after] at split_cons
    cases next with
    | some next => rw [lines_of_boundary split_cons, lines_of_boundary after]; rfl
    | none =>
      rw [lines_of_no_boundary split_cons, lines_of_no_boundary after]
      cases line <;> rfl

/-- The lines of a text that is not empty, by what it begins with. -/
theorem lines_cons_cases (c : Char) (rest : List Char) :
    (∃ next, c = '\r' ∧ rest = '\n' :: next ∧ lines (c :: rest) = [] :: lines next) ∨
    (isLineBreak c = true ∧ (c = '\r' → rest.head? ≠ some '\n') ∧
      lines (c :: rest) = [] :: lines rest) ∨
    (isLineBreak c = false ∧
      lines (c :: rest) = (c :: (lines rest).headD []) :: (lines rest).tail) := by
  cases hc : isLineBreak c with
  | false => exact Or.inr (Or.inr ⟨rfl, lines_letter hc rest⟩)
  | true =>
    by_cases pair : c = '\r' ∧ rest.head? = some '\n'
    · obtain ⟨rfl, feed⟩ := pair
      obtain ⟨next, rfl⟩ := List.head?_eq_some_iff.mp feed
      exact Or.inl ⟨next, rfl, rfl, lines_return_feed next⟩
    · have single : c = '\r' → rest.head? ≠ some '\n' := fun e f => pair ⟨e, f⟩
      exact Or.inr (Or.inl ⟨rfl, single, lines_boundary hc single⟩)

theorem lines_ne_nil (ne : cs ≠ []) : lines cs ≠ [] := by
  cases cs with
  | nil => exact absurd rfl ne
  | cons c rest =>
    rcases lines_cons_cases c rest with ⟨next, -, -, e⟩ | ⟨-, -, e⟩ | ⟨-, e⟩ <;>
      exact e ▸ List.cons_ne_nil _ _

theorem lines_feed (rest : List Char) : lines ('\n' :: rest) = [] :: lines rest :=
  lines_boundary rfl fun e => absurd e (by decide)

/-- What stands before the first boundary belongs to the first line. -/
theorem lines_unbroken_append (hxs : Unbroken xs) (ne : xs ≠ []) (ys : List Char) :
    lines (xs ++ ys) = (xs ++ (lines ys).headD []) :: (lines ys).tail := by
  induction xs with
  | nil => exact absurd rfl ne
  | cons c xs ih =>
    obtain ⟨hc, hxs⟩ := List.forall_mem_cons.mp hxs
    rw [List.cons_append, lines_letter hc]
    cases xs with
    | nil => rfl
    | cons d xs => rw [ih hxs (List.cons_ne_nil d xs)]; rfl

theorem unbroken_of_mem_lines : ∀ line ∈ lines cs, Unbroken line := by
  induction cs with
  | nil => simp
  | cons c rest ih =>
    rcases lines_cons_cases c rest with ⟨next, -, rfl, e⟩ | ⟨-, -, e⟩ | ⟨hc, e⟩
    · rw [lines_feed] at ih
      rw [e]
      exact ih
    · rw [e]
      exact List.forall_mem_cons.mpr ⟨by simp [Unbroken], ih⟩
    · rw [e]
      cases first : lines rest with
      | nil => simp [Unbroken, hc]
      | cons l ls =>
        rw [first] at ih
        obtain ⟨hl, hls⟩ := List.forall_mem_cons.mp ih
        exact List.forall_mem_cons.mpr ⟨List.forall_mem_cons.mpr ⟨hc, hl⟩, hls⟩

/-- A text without boundaries has no line beyond the first. -/
theorem Unbroken.tail_lines (h : Unbroken cs) : (lines cs).tail = [] := by
  cases cs with
  | nil => rw [lines_nil]; rfl
  | cons c cs =>
    have whole := lines_unbroken_append h (List.cons_ne_nil c cs) []
    rw [List.append_nil, lines_nil] at whole
    rw [whole]
    rfl

/-- A line feed parts what stands before it from what stands after it. -/
theorem lines_append_feed (xs ys : List Char) :
    lines (xs ++ '\n' :: ys) = lines (xs ++ ['\n']) ++ lines ys := by
  induction xs with
  | nil => simp only [List.nil_append, lines_feed, lines_nil, List.cons_append]
  | cons c xs ih =>
    rw [List.cons_append, List.cons_append]
    rcases lines_cons_cases c (xs ++ ['\n']) with ⟨next, rfl, e, -⟩ | ⟨hc, single, e⟩ | ⟨hc, e⟩
    · -- The feed of the boundary is the first of `xs`, or else the one that parts the text.
      cases xs with
      | nil => simp only [List.nil_append, lines_return_feed, lines_nil, List.cons_append]
      | cons d xs =>
        cases e
        simp only [List.cons_append, lines_feed, lines_return_feed] at ih ⊢
        exact ih
    · have single' : c = '\r' → (xs ++ '\n' :: ys).head? ≠ some '\n' := by
        cases xs with
        | nil => exact single
        | cons d xs => exact single
      rw [e, lines_boundary hc single', ih, List.cons_append]
    · rw [e, lines_letter hc, ih]
      cases first : lines (xs ++ ['\n']) with
      | nil => exact absurd first (lines_ne_nil (by simp))
      | cons l ls => rfl

/-- A line feed at the end opens at most an empty line. -/
theorem lines_feed_end (cs : List Char) :
    lines (cs ++ ['\n']) = lines cs ∨ lines (cs ++ ['\n']) = lines cs ++ [[]] := by
  -- The lines are cut from the front, so the induction comes to the end of the text last.
  induction cs with
  | nil => exact Or.inr (by rw [List.nil_append, lines_feed, lines_nil, List.nil_append])
  | cons c cs ih =>
    rw [List.cons_append]
    rcases lines_cons_cases c (cs ++ ['\n']) with ⟨next, rfl, e, -⟩ | ⟨hc, single, e⟩ | ⟨hc, e⟩
    · cases cs with
      | nil =>
        rw [List.nil_append, lines_return_feed, lines_boundary rfl (by simp)]
        exact Or.inl rfl
      | cons d cs =>
        cases e
        simpa only [List.cons_append, lines_feed, lines_return_feed] using ih
    · have single' : c = '\r' → cs.head? ≠ some '\n' := by
        cases cs with
        | nil => simp
        | cons d cs => exact single
      rw [e, lines_boundary hc single']
      exact ih.imp (congrArg _) (congrArg _)
    · rw [e, lines_letter hc]
      cases cs with
      | nil => exact Or.inl (by rw [List.nil_append, lines_feed, lines_nil]; rfl)
      | cons d cs =>
        cases first : lines (d :: cs) with
        | nil => exact absurd first (lines_ne_nil (List.cons_ne_nil d cs))
        | cons l ls =>
          rw [first] at ih
          exact ih.imp (fun same => by rw [same]) fun more => by rw [more]; rfl

end EnvCensus.Text
