import EnvCensus.Text.Blank
import Mathlib.Data.List.TakeWhile

/-!
# Blanks and quotes at the ends of a text

Trimming stops at the first character that is no blank, from either side. A text
may also be cut where a character stands in it for the first time.
-/

namespace EnvCensus.Text

variable {c q : Char} {cs xs ys : List Char}

theorem trimLeft_cons (hc : isBlank c = false) (cs : List Char) : trimLeft (c :: cs) = c :: cs :=
  List.dropWhile_cons_of_neg (by rw [hc]; exact Bool.false_ne_true)

theorem trimRight_append (hc : isBlank c = false) (xs ys : List Char) :
    trimRight (xs ++ c :: ys) = xs ++ c :: trimRight ys := by
  have stop : (c :: xs.reverse).dropWhile isBlank = c :: xs.reverse := trimLeft_cons hc _
  rw [trimRight, trimRight, List.reverse_append, List.reverse_cons, List.append_assoc,
    List.singleton_append, List.dropWhile_append]
  split
  · rename_i none
    rw [stop, List.isEmpty_iff.mp none]
    simp
  · simp

/-- A character that is no blank is the first that is left when blanks alone stand before it. -/
theorem trimLeft_eq_cons_iff (hc : isBlank c = false) : trimLeft cs = c :: xs ↔
    ∃ blanks, (∀ b ∈ blanks, isBlank b = true) ∧ cs = blanks ++ c :: xs := by
  constructor
  · intro left
    refine ⟨cs.takeWhile isBlank, fun b hb => List.mem_takeWhile_imp hb, ?_⟩
    rw [← left]
    exact (List.takeWhile_append_dropWhile ..).symm
  · rintro ⟨blanks, blank, rfl⟩
    rw [trimLeft, List.dropWhile_append_of_pos blank]
    exact trimLeft_cons hc xs

theorem trim_cons (hc : isBlank c = false) (cs : List Char) :
    trim (c :: cs) = c :: trimRight cs := by
  rw [trim, trimLeft_cons hc]
  exact trimRight_append hc [] cs

theorem trim_trimLeft (cs : List Char) : trim (trimLeft cs) = trim cs := by
  rw [trim, trimLeft_trimLeft, trim]

/-- What is trimmed from the right was there before. -/
theorem mem_of_mem_trimRight (h : c ∈ trimRight cs) : c ∈ cs := by
  have mem : c ∈ cs.reverse.dropWhile isBlank := List.mem_reverse.mp h
  exact List.mem_reverse.mp ((List.dropWhile_sublist _).subset mem)

theorem trimRight_of_trim (h : trim cs = cs) : trimRight cs = cs := calc
  trimRight cs = trimRight (trim cs) := by rw [h]
  _ = trim cs := trimRight_trimRight _
  _ = cs := h

/-- Only blanks are trimmed away altogether. -/
theorem trim_ne_nil (hc : isBlank c = false) (mem : c ∈ cs) : trim cs ≠ [] := by
  cases left : trimLeft cs with
  | nil =>
    have blank := List.dropWhile_eq_nil_iff.mp left c mem
    rw [hc] at blank
    cases blank
  | cons d rest =>
    have first : isBlank d = false := by
      have left : cs.dropWhile isBlank = d :: rest := left
      have stop := List.head_dropWhile_not isBlank (left.trans_ne (List.cons_ne_nil d rest))
      simpa only [left, List.head_cons] using stop
    rw [trim, left]
    exact (trimRight_append first [] rest).trans_ne (List.cons_ne_nil _ _)

/-- Where there are no blanks there is nothing to trim. -/
theorem trim_of_no_blank (h : ∀ c ∈ cs, isBlank c = false) : trim cs = cs := by
  have left : ∀ {cs : List Char}, (∀ c ∈ cs, isBlank c = false) → trimLeft cs = cs := by
    intro cs h
    cases cs with
    | nil => rfl
    | cons c cs => exact trimLeft_cons (h c List.mem_cons_self) cs
  have right : trimLeft cs.reverse = cs.reverse := left fun c hc => h c (List.mem_reverse.mp hc)
  rw [trim, left h, trimRight, ← trimLeft, right, List.reverse_reverse]

theorem isQuote_iff : isQuote c = true ↔ c = '"' ∨ c = '\'' := by
  rw [isQuote, Bool.or_eq_true, beq_iff_eq, beq_iff_eq]

theorem stripQuotes_quoted (hq : isQuote q = true) (cs : List Char) :
    stripQuotes (q :: cs ++ [q]) = cs := by
  cases cs with
  | nil => simp [stripQuotes, hq]
  | cons c cs =>
    have last : (c :: (cs ++ [q])).getLast? = some q := by
      rw [← List.cons_append, List.getLast?_concat]
    have front : (c :: (cs ++ [q])).dropLast = c :: cs := by
      rw [← List.cons_append, List.dropLast_concat]
    simp only [stripQuotes, List.cons_append, hq, last, front, beq_self_eq_true, Bool.and_self,
      if_true]

/-- The second text is the first without one layer of quotes, if the first has one. -/
inductive Unwraps : List Char → List Char → Prop
  | layer {q : Char} {inner : List Char} (quote : isQuote q = true) :
      Unwraps (q :: (inner ++ [q])) inner
  | bare {cs : List Char} (none : ∀ q inner, isQuote q = true → cs ≠ q :: (inner ++ [q])) :
      Unwraps cs cs

theorem stripQuotes_bare (none : ∀ q inner, isQuote q = true → cs ≠ q :: (inner ++ [q])) :
    stripQuotes cs = cs := by
  unfold stripQuotes
  split
  · rename_i q c rest
    split
    · rename_i wrapped
      obtain ⟨quote, last⟩ := Bool.and_eq_true_iff.mp wrapped
      obtain ⟨inner, whole⟩ := List.getLast?_eq_some_iff.mp (eq_of_beq last)
      exact absurd (congrArg (q :: ·) whole) (none q inner quote)
    · rfl
  · rfl

theorem stripQuotes_plain (h : ∀ c ∈ cs, isQuote c = false) : stripQuotes cs = cs := by
  refine stripQuotes_bare fun q inner quote e => ?_
  have plain : isQuote q = false := h q (e ▸ List.mem_cons_self)
  rw [quote] at plain
  cases plain

theorem stripQuotes_eq_iff : stripQuotes cs = xs ↔ Unwraps cs xs := by
  constructor
  · rintro rfl
    by_cases wrapped : ∃ q inner, isQuote q = true ∧ cs = q :: (inner ++ [q])
    · obtain ⟨q, inner, quote, rfl⟩ := wrapped
      rw [← List.cons_append, stripQuotes_quoted quote]
      exact .layer quote
    · have none : ∀ q inner, isQuote q = true → cs ≠ q :: (inner ++ [q]) :=
        fun q inner quote e => wrapped ⟨q, inner, quote, e⟩
      rw [stripQuotes_bare none]
      exact .bare none
  · intro h
    cases h with
    | layer quote => exact stripQuotes_quoted quote xs
    | bare none => exact stripQuotes_bare none

theorem Unwraps.sublist (h : Unwraps cs xs) : xs.Sublist cs := by
  cases h with
  | layer quote => exact (List.sublist_append_left _ _).cons _
  | bare none => exact .refl _

theorem Unwraps.subset (h : Unwraps cs xs) : xs ⊆ cs := h.sublist.subset

/-- A layer of quotes has nothing but quotes. -/
theorem Unwraps.count_eq (h : Unwraps cs xs) (hc : isQuote c = false) : xs.count c = cs.count c := by
  cases h with
  | @layer q inner quote =>
    have other : q ≠ c := by
      rintro rfl
      rw [quote] at hc
      cases hc
    simp [other]
  | bare none => rfl

/-! ### Up to a character -/

theorem head?_dropWhile (p : Char → Bool) (cs : List Char) :
    ∀ c ∈ (cs.dropWhile p).head?, p c = false := by
  intro c hc
  have stop := List.head?_dropWhile_not p cs
  rw [Option.mem_def.mp hc] at stop
  exact stop

/-- A run ends where a character stands that does not belong to it. -/
theorem takeWhile_run {p : Char → Bool} (run : ∀ c ∈ xs, p c = true)
    (stop : ∀ c ∈ ys.head?, p c = false) :
    (xs ++ ys).takeWhile p = xs ∧ (xs ++ ys).dropWhile p = ys := by
  rw [List.takeWhile_append_of_pos run, List.dropWhile_append_of_pos run]
  cases ys with
  | nil => simp
  | cons c ys => simp [stop c rfl]

theorem takeWhile_ne_append (absent : c ∉ xs) (ys : List Char) :
    (xs ++ c :: ys).takeWhile (· ≠ c) = xs ∧ (xs ++ c :: ys).dropWhile (· ≠ c) = c :: ys := by
  refine takeWhile_run (fun d hd => ?_) (by simp)
  rw [decide_eq_true_eq]
  rintro rfl
  exact absent hd

theorem exists_of_dropWhile_ne {d : Char} (cut : cs.dropWhile (· ≠ c) = d :: ys) :
    ∃ xs, c ∉ xs ∧ cs = xs ++ c :: ys := by
  obtain rfl : d = c := by
    have stop := head?_dropWhile (· ≠ c) cs
    rw [cut] at stop
    simpa using stop
  refine ⟨cs.takeWhile (· ≠ d), fun mem => ?_, ?_⟩
  · have other := List.mem_takeWhile_imp mem
    simp at other
  · rw [← cut, List.takeWhile_append_dropWhile]

/-! ### Trimming at one end and at both -/

theorem trimRight_of_blank (blank : ∀ c ∈ cs, isBlank c = true) : trimRight cs = [] := by
  rw [trimRight, List.dropWhile_eq_nil_iff.mpr fun c hc => blank c (List.mem_reverse.mp hc)]
  rfl

/-- Blanks may be trimmed at either end first. -/
theorem trimLeft_trimRight (cs : List Char) : trimLeft (trimRight cs) = trim cs := by
  cases left : trimLeft cs with
  | nil =>
    have blank := List.dropWhile_eq_nil_iff.mp left
    rw [trim, left, trimRight_of_blank blank]
    rfl
  | cons c rest =>
    have stop : isBlank c = false := head?_dropWhile isBlank cs c (by rw [← trimLeft, left]; rfl)
    obtain ⟨blanks, blank, rfl⟩ := (trimLeft_eq_cons_iff stop).mp left
    rw [trim, left, trimRight_append stop]
    exact (takeWhile_run blank (by simpa using stop)).2.trans (trimRight_append stop [] rest).symm

theorem trim_trimRight (cs : List Char) : trim (trimRight cs) = trim cs := by
  rw [trim, trimLeft_trimRight, trim, trimRight_trimRight]

theorem trim_trim (cs : List Char) : trim (trim cs) = trim cs := by
  rw [← trimLeft_trimRight cs, trim_trimLeft, trim_trimRight, trimLeft_trimRight]

/-- Trimming takes nothing but blanks. -/
theorem count_trim (hc : isBlank c = false) (cs : List Char) : (trim cs).count c = cs.count c := by
  have passed (cs : List Char) : (cs.dropWhile isBlank).count c = cs.count c := by
    have none : (cs.takeWhile isBlank).count c = 0 := by
      refine List.count_eq_zero_of_not_mem fun mem => ?_
      have blank := List.mem_takeWhile_imp mem
      rw [hc] at blank
      cases blank
    rw [← List.takeWhile_append_dropWhile (p := isBlank) (l := cs), List.count_append, none]
    simp
  rw [trim, trimRight, List.count_reverse, passed, List.count_reverse, trimLeft, passed]

/-- What is trimmed from the right stands behind what is left. -/
theorem exists_trimRight (cs : List Char) : ∃ tail, cs = trimRight cs ++ tail := by
  refine ⟨(cs.reverse.takeWhile isBlank).reverse, ?_⟩
  rw [trimRight, ← List.reverse_append, List.takeWhile_append_dropWhile, List.reverse_reverse]

theorem trimRight_sublist (cs : List Char) : (trimRight cs).Sublist cs := by
  have reversed : (cs.reverse.dropWhile isBlank).Sublist cs.reverse := List.dropWhile_sublist _
  rw [trimRight, ← List.reverse_sublist, List.reverse_reverse]
  exact reversed

theorem trim_sublist (cs : List Char) : (trim cs).Sublist cs :=
  (trimRight_sublist _).trans (List.dropWhile_sublist _)

theorem trimLeft_trim (cs : List Char) : trimLeft (trim cs) = trim cs := by
  rw [← trimLeft_trimRight, trimLeft_trimLeft]

/-- What no blank stands before begins with no blank, however short it is. -/
theorem trimLeft_of_append (front : trimLeft (xs ++ ys) = xs ++ ys) : trimLeft xs = xs := by
  cases xs with
  | nil => rfl
  | cons c xs =>
    have stop : isBlank c = false :=
      head?_dropWhile isBlank (c :: xs ++ ys) c (by rw [← trimLeft, front]; rfl)
    exact trimLeft_cons stop xs

end EnvCensus.Text
