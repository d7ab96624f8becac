import EnvCensus.Proofs.Dotenv.Declaration
import EnvCensus.Proofs.Text.Lines

/-!
# Reading a declaration file

What a text declares, apart from the numbers of the lines, is read line by line.
A line feed parts it into what stands before and after; so a text that is joined
from lines declares what each of them does.
-/

namespace EnvCensus.Dotenv

open Text

variable {c : Char} {cs : List Char}

/-- What a text declares, without the numbers of the lines. -/
def read (cs : List Char) : List Entry := (lines cs).filterMap (parseLine ·)

/-- What a text declares beyond its first line. -/
def readFurther (cs : List Char) : List Entry := (lines cs).tail.filterMap (parseLine ·)

/-- The number of a line is passed on and decides nothing. -/
theorem parseLine_number (line : List Char) (number : Nat) :
    parseLine line number = (parseLine line).map fun e => { e with line := number } := by
  rw [parseLine, parseLine]
  split
  · rfl
  · simp only [Option.map_map]
    rfl

theorem parseLines_read (n : Nat) (ls : List (List Char)) :
    (parseLines n ls).map (fun e => { e with line := 0 }) = ls.filterMap (parseLine ·) := by
  induction ls generalizing n with
  | nil => rfl
  | cons l ls ih =>
    rw [parseLines, parseLine_number, List.filterMap_cons]
    cases first : parseLine l with
    | none => simpa only [Option.map_none] using ih (n + 1)
    | some e =>
      have unnumbered : e.line = 0 := (parseLine_named first).2
      have same : { e with line := 0 } = e := by rw [← unnumbered]
      simp only [Option.map_some, List.map_cons, ih, same]

theorem parse_read (content : String) :
    (parse content).map (fun e => { e with line := 0 }) = read content.toList :=
  parseLines_read 1 _

/-- Entries come in the order of their lines. -/
theorem parseLines_ordered (n : Nat) (ls : List (List Char)) :
    ((parseLines n ls).map (·.line)).Pairwise (· < ·) := by
  induction ls generalizing n with
  | nil => exact List.Pairwise.nil
  | cons l ls ih =>
    rw [parseLines]
    split
    · rename_i e he
      refine List.pairwise_cons.mpr ⟨fun line hline => ?_, ih (n + 1)⟩
      obtain ⟨later, hlater, rfl⟩ := List.mem_map.mp hline
      have first := (parseLine_named he).2
      have after := (parseLines_named later hlater).2
      simp only
      omega
    · exact ih (n + 1)

/-! ### Joined texts -/

@[simp] theorem read_nil : read [] = [] := by rw [read, lines_nil]; rfl

/-- A line feed at the end declares nothing. -/
theorem read_feed_end (cs : List Char) : read (cs ++ ['\n']) = read cs := by
  rw [read, read]
  rcases lines_feed_end cs with same | more
  · rw [same]
  · rw [more, List.filterMap_append]
    exact List.append_nil _

/-- A line feed parts what is declared before it from what is declared after it. -/
theorem read_append_feed (xs ys : List Char) : read (xs ++ '\n' :: ys) = read xs ++ read ys := by
  rw [read, lines_append_feed, List.filterMap_append]
  exact congrArg (· ++ read ys) (read_feed_end xs)

/-- Lines that are joined declare what each of them does. -/
theorem read_intercalate (ls : List String) :
    read ("\n".intercalate ls).toList = ls.flatMap fun l => read l.toList := by
  induction ls with
  | nil => simp
  | cons l ls ih =>
    cases ls with
    | nil => simp
    | cons m ls =>
      have joined : ("\n".intercalate (l :: m :: ls)).toList =
          l.toList ++ '\n' :: ("\n".intercalate (m :: ls)).toList := by
        rw [String.intercalate_cons_cons, String.toList_append, String.toList_append,
          List.append_assoc]
        rfl
      rw [joined, read_append_feed, ih]
      rfl

/-- Line feeds at the end can be dropped; they stand first in the reversed text. -/
theorem read_dropWhile (reversed : List Char) :
    read (reversed.dropWhile (· == '\n')).reverse = read reversed.reverse := by
  induction reversed with
  | nil => rfl
  | cons c reversed ih =>
    rw [List.dropWhile_cons]
    split
    · rename_i feed
      rw [ih, List.reverse_cons, eq_of_beq feed, read_feed_end]
    · rfl

/-! ### One line of a report -/

/-- A single line declares what is read in it. -/
theorem read_unbroken (line : Unbroken cs) (ne : cs ≠ []) : read cs = (parseLine cs).toList := by
  have whole := lines_unbroken_append line ne []
  rw [List.append_nil, lines_nil] at whole
  rw [read, whole]
  cases h : parseLine cs <;> simp [h]

theorem readFurther_unbroken (line : Unbroken cs) : readFurther cs = [] := by
  rw [readFurther, line.tail_lines]
  rfl

/-- What stands before the first boundary has no part in what is declared beyond it. -/
theorem readFurther_append {front : List Char} (line : Unbroken front) (ne : front ≠ [])
    (cs : List Char) : readFurther (front ++ cs) = readFurther cs := by
  rw [readFurther, lines_unbroken_append line ne]
  rfl

/-- A comment declares what stands beyond its first line. -/
theorem read_comment (hash : cs.head? = some '#') : read cs = readFurther cs := by
  obtain ⟨rest, rfl⟩ := List.head?_eq_some_iff.mp hash
  have skipped : ∀ line, parseLine ('#' :: line) = none := by
    intro line
    rw [parseLine, trim_cons (by decide)]
    simp
  rw [read, readFurther, lines_letter (by decide), List.filterMap_cons, skipped]
  rfl

theorem isLineBreak_of_isTail (h : Name.isTail c = true) : isLineBreak c = false := by
  by_contra boundary
  have blank := isBlank_of_isLineBreak (eq_true_of_ne_false boundary)
  rw [Name.isBlank_of_isTail h] at blank
  cases blank

/-- A declaration of an exact name declares it, and what stands beyond the first line of its
value. -/
theorem read_binding {name : String} (exact : Name.Exact name) (w : List Char) :
    ∃ e, e.name = name ∧ read (name.toList ++ '=' :: w) = e :: readFurther w := by
  have unbroken : Unbroken (name.toList ++ ['=']) :=
    unbroken_append.mpr
      ⟨fun c hc => isLineBreak_of_isTail (exact.isTail hc), by decide⟩
  have first := lines_unbroken_append unbroken (by simp) w
  rw [List.append_assoc, List.singleton_append] at first
  have line : '\n' ∉ (lines w).headD [] := by
    cases e : lines w with
    | nil => exact List.not_mem_nil
    | cons l ls => exact (unbroken_of_mem_lines l (e ▸ List.mem_cons_self)).no_feed
  obtain ⟨e, parsed, named⟩ := parseLine_binding exact line 0
  refine ⟨e, named, ?_⟩
  rw [read, first, List.append_assoc, List.singleton_append, List.filterMap_cons, parsed]
  rfl

end EnvCensus.Dotenv
