import EnvCensus.Proofs.Name
import EnvCensus.Proofs.Splits
import EnvCensus.Proofs.Text.Blank
import EnvCensus.Proofs.Text.Lines

/-!
# Ways to break a text

A text is broken at every line boundary or at line feeds only. Either way lines
that are joined by line feeds are read again, up to the first of them that holds
a character that ends a line; of that one the part before it is left.
-/

namespace EnvCensus.Text

variable {xs : List Char}

theorem feedLines_append_feed (absent : '\n' ∉ xs) (ys : List Char) :
    feedLines (xs ++ '\n' :: ys) = xs :: feedLines ys := by
  obtain ⟨line, rest⟩ := takeWhile_ne_append absent ys
  rw [feedLines]
  split
  · rename_i none
    rw [rest] at none
    cases none
  · rename_i cut
    rw [rest] at cut
    cases cut
    rw [line]

theorem lines_whole_feed (whole : Unbroken xs) (ys : List Char) :
    lines (xs ++ '\n' :: ys) = xs :: lines ys := by
  cases xs with
  | nil => exact lines_feed ys
  | cons x xs =>
    rw [lines_unbroken_append whole (List.cons_ne_nil x xs), lines_feed]
    simp

/-- The first line ends at the first boundary. -/
theorem lines_first {c : Char} (whole : Unbroken xs) (hc : isLineBreak c = true) (ys : List Char) :
    ∃ rest, lines (xs ++ c :: ys) = xs :: rest := by
  have opens : ∃ rest, lines (c :: ys) = [] :: rest := by
    rcases lines_cons_cases c ys with ⟨next, -, -, e⟩ | ⟨-, -, e⟩ | ⟨letter, -⟩
    · exact ⟨_, e⟩
    · exact ⟨_, e⟩
    · rw [hc] at letter
      cases letter
  obtain ⟨rest, e⟩ := opens
  cases xs with
  | nil => exact ⟨rest, e⟩
  | cons x xs =>
    refine ⟨rest, ?_⟩
    rw [lines_unbroken_append whole (List.cons_ne_nil x xs), e]
    simp

/-- The character is printed ASCII. -/
def IsPrinted (c : Char) : Prop := ' ' ≤ c ∧ c ≤ '~'

instance (c : Char) : Decidable (IsPrinted c) := inferInstanceAs (Decidable (_ ∧ _))

def Printed (cs : List Char) : Prop := ∀ c ∈ cs, IsPrinted c

instance (cs : List Char) : Decidable (Printed cs) := List.decidableBAll IsPrinted cs

/-- A way to break texts into lines, with the characters that end them. A line feed is one of these,
and no printed ASCII character is. -/
structure Breaking where
  lines : List Char → List (List Char)
  ends : Char → Bool
  plain : ∀ c, IsPrinted c → ends c = false
  feed : ∀ {xs}, (∀ c ∈ xs, ends c = false) → ∀ ys, lines (xs ++ '\n' :: ys) = xs :: lines ys
  first : ∀ {xs c}, (∀ c ∈ xs, ends c = false) → ends c = true → ∀ ys,
    ∃ rest, lines (xs ++ c :: ys) = xs :: rest

namespace Breaking

/-- At every line boundary. -/
def boundaries : Breaking where
  lines := Text.lines
  ends := isLineBreak
  plain c printed := by
    have low : 32 ≤ c.toNat := printed.1
    have high : c.toNat ≤ 126 := printed.2
    simp only [isLineBreak, Bool.or_eq_false_iff, Bool.and_eq_false_iff, decide_eq_false_iff_not,
      beq_eq_false_iff_ne]
    omega
  feed := lines_whole_feed
  first := lines_first

/-- At line feeds only. -/
def feeds : Breaking where
  lines := feedLines
  ends c := c == '\n'
  plain c printed := beq_false_of_ne fun e => absurd (e ▸ printed.1) (by decide)
  feed whole := feedLines_append_feed fun mem => by simpa using whole _ mem
  first whole hc ys := by
    rw [eq_of_beq hc]
    exact ⟨_, feedLines_append_feed (fun mem => by simpa using whole _ mem) ys⟩

theorem lines_boundaries : boundaries.lines = Text.lines := rfl

theorem lines_feeds : feeds.lines = feedLines := rfl

/-- The text stands on one line. -/
def Whole (b : Breaking) (s : String) : Prop := ∀ c ∈ s.toList, b.ends c = false

variable {b : Breaking}

theorem whole_append {s t : String} : b.Whole (s ++ t) ↔ b.Whole s ∧ b.Whole t := by
  rw [Whole, String.toList_append]
  exact List.forall_mem_append

/-- Printed ASCII text stands on one line. -/
theorem whole_of_printed {s : String} (printed : Printed s.toList) : b.Whole s :=
  fun c mem => b.plain c (printed c mem)

theorem whole_feeds_iff {s : String} : feeds.Whole s ↔ '\n' ∉ s.toList := by
  simp [Whole, feeds, List.forall_mem_ne']

/-- Lines that are joined are lines again. -/
theorem lines_joined {ls more : List String} (whole : ∀ l ∈ ls, b.Whole l) (ne : more ≠ []) :
    b.lines ("\n".intercalate (ls ++ more)).toList =
      ls.map String.toList ++ b.lines ("\n".intercalate more).toList := by
  induction ls with
  | nil => rfl
  | cons l ls ih =>
    obtain ⟨first, others⟩ := List.forall_mem_cons.mp whole
    have joined : ("\n".intercalate (l :: (ls ++ more))).toList =
        l.toList ++ '\n' :: ("\n".intercalate (ls ++ more)).toList := by
      rw [String.intercalate_cons_of_ne_nil (List.append_ne_nil_of_right_ne_nil ls ne),
        String.toList_append, String.toList_append, List.append_assoc]
      rfl
    rw [List.cons_append, joined, b.feed first, ih others]
    rfl

/-- Of a line that is broken the part before its first end is left. -/
theorem lines_broken {l : String} (broken : ¬ b.Whole l) (more : List String) :
    ∃ front x back rest, l.toList = front ++ x :: back ∧ b.ends x = true ∧
      b.lines ("\n".intercalate (l :: more)).toList = front :: rest := by
  obtain ⟨front, x, back, split, whole, ends⟩ := exists_first broken
  have ends : b.ends x = true := Bool.of_not_eq_false ends
  obtain ⟨others, starts⟩ :
      ∃ others, ("\n".intercalate (l :: more)).toList = l.toList ++ others := by
    cases more with
    | nil => exact ⟨[], by rw [String.intercalate_singleton, List.append_nil]⟩
    | cons m more =>
      rw [String.intercalate_cons_cons, String.toList_append, String.toList_append,
        List.append_assoc]
      exact ⟨_, rfl⟩
  obtain ⟨rest, first⟩ := b.first whole ends (back ++ others)
  refine ⟨front, x, back, rest, split, ends, ?_⟩
  rw [starts, split, List.append_assoc, List.cons_append, first]

theorem whole_toString (n : Nat) : b.Whole (toString n) := by
  refine whole_of_printed fun c hc => ?_
  rw [Nat.toString_eq_repr, Nat.toList_repr] at hc
  have digit := Name.isDigit_iff.mp (Nat.isDigit_of_mem_toDigits (by decide) (by decide) hc)
  exact ⟨le_trans (by decide) digit.1, le_trans digit.2 (by decide)⟩

theorem whole_toString_int (n : Int) : b.Whole (toString n) := by
  cases n with
  | ofNat n => exact whole_toString n
  | negSucc n =>
    exact whole_append.mpr ⟨whole_of_printed (by decide), whole_toString (n + 1)⟩

end Breaking

end EnvCensus.Text
