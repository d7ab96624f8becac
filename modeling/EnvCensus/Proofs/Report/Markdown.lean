import EnvCensus.Proofs.Splits
import EnvCensus.Proofs.Text.Breaking
import EnvCensus.Report.Format
import Mathlib.Data.List.Forall2

/-!
# Tables of variables

A document has one row for every variable, between the separator row of its table
and the next blank line. Bars in a default are escaped, so they end no cell; line
breaks are not, and a default with one of them cuts its row in two. The table is
well formed just when no name and no default is broken over lines.
-/

namespace EnvCensus.Report.Markdown

open Text
open Text.Breaking (whole_of_printed whole_toString whole_toString_int)

variable {cs xs ys cell : List Char}

/-! ### Cells -/

/-- The pieces of a text between the bars that have no backslash directly before them; one stands
before the text if it is `escaped`. -/
def pieces (escaped : Bool) : List Char → List (List Char)
  | [] => [[]]
  | c :: cs =>
    if c = '|' ∧ escaped = false then [] :: pieces false cs
    else (pieces (c == '\\') cs).modifyHead (c :: ·)

/-- Every bar of the text has a backslash directly before it, and a bar behind the text has none; one
stands before the text if it is `escaped`. -/
inductive Sealed : Bool → List Char → Prop
  | nil : Sealed false []
  | cons {escaped : Bool} {c : Char} {cs : List Char} (bar : c = '|' → escaped = true)
      (later : Sealed (c == '\\') cs) : Sealed escaped (c :: cs)

/-- The first bar behind a sealed text ends it. -/
theorem pieces_sealed {escaped : Bool} (h : Sealed escaped cell) (rest : List Char) :
    pieces escaped (cell ++ '|' :: rest) = cell :: pieces false rest := by
  induction h with
  | nil => rw [List.nil_append, pieces, if_pos ⟨rfl, rfl⟩]
  | @cons escaped c cs bar later ih =>
    have inside : ¬ (c = '|' ∧ escaped = false) := by
      rintro ⟨rfl, free⟩
      rw [bar rfl] at free
      cases free
    rw [List.cons_append, pieces, if_neg inside, ih]
    rfl

/-- Sealed cells are read off a row one by one. -/
theorem pieces_cells {cells : List (List Char)} (h : ∀ cell ∈ cells, Sealed false cell) :
    pieces false (cells.flatMap (· ++ ['|'])) = cells ++ [[]] := by
  induction cells with
  | nil => rfl
  | cons cell cells ih =>
    obtain ⟨first, others⟩ := List.forall_mem_cons.mp h
    rw [List.flatMap_cons, List.append_assoc, List.singleton_append, pieces_sealed first, ih others]
    rfl

theorem sealed_append {escaped : Bool} (hxs : Sealed escaped xs) (hys : Sealed false ys) :
    Sealed escaped (xs ++ ys) := by
  induction hxs with
  | nil => exact hys
  | cons bar _ ih => exact .cons bar ih

/-- The text has neither bars nor backslashes. -/
def Barless (cs : List Char) : Prop := ∀ c ∈ cs, c ≠ '|' ∧ c ≠ '\\'

instance (cs : List Char) : Decidable (Barless cs) :=
  List.decidableBAll (fun c => c ≠ '|' ∧ c ≠ '\\') cs

theorem sealed_plain (h : Barless cs) : Sealed false cs := by
  induction cs with
  | nil => exact .nil
  | cons c cs ih =>
    obtain ⟨⟨bar, slash⟩, others⟩ := List.forall_mem_cons.mp h
    refine .cons (fun e => absurd e bar) ?_
    rw [beq_false_of_ne slash]
    exact ih others

/-- Whatever stands in a cell is sealed by the quote behind it. -/
theorem sealed_cellText (escaped : Bool) (s : String) :
    Sealed escaped ((cellText s).toList ++ ['\x60', ' ']) := by
  have blank : Sealed false [' '] := sealed_plain (by decide)
  rw [cellText, String.toList_ofList]
  induction s.toList generalizing escaped with
  | nil => exact .cons (fun e => absurd e (by decide)) blank
  | cons c cs ih =>
    rw [List.flatMap_cons, List.append_assoc]
    by_cases bar : c = '|'
    · subst bar
      exact .cons (fun e => absurd e (by decide)) (.cons (fun _ => rfl) (ih _))
    · have single : (if c == '|' then ['\\', '|'] else [c]) = [c] := by simp [bar]
      rw [single]
      exact .cons (fun e => absurd e bar) (ih _)

theorem length_pieces_pos (escaped : Bool) (cs : List Char) : 0 < (pieces escaped cs).length := by
  induction cs generalizing escaped with
  | nil => exact Nat.one_pos
  | cons c cs ih =>
    rw [pieces]
    split
    · exact Nat.succ_pos _
    · rw [List.length_modifyHead]
      exact ih _

/-- More text makes no fewer pieces. -/
theorem length_pieces_le (escaped : Bool) (xs ys : List Char) :
    (pieces escaped xs).length ≤ (pieces escaped (xs ++ ys)).length := by
  induction xs generalizing escaped with
  | nil => exact length_pieces_pos escaped ys
  | cons c xs ih =>
    rw [List.cons_append, pieces, pieces]
    split
    · exact Nat.succ_le_succ (ih false)
    · rw [List.length_modifyHead, List.length_modifyHead]
      exact ih _

/-- A bar at the end makes one piece more. -/
theorem length_pieces_bar (escaped : Bool) (xs : List Char) :
    (pieces escaped (xs ++ [' ', '|'])).length = (pieces escaped xs).length + 1 := by
  induction xs generalizing escaped with
  | nil => cases escaped <;> rfl
  | cons c xs ih =>
    rw [List.cons_append, pieces, pieces]
    split
    · rw [List.length_cons, List.length_cons, ih]
    · rw [List.length_modifyHead, List.length_modifyHead, ih]

/-! ### Rows -/

/-- The separator row of the table. -/
def separator : String := "|----------|----------|--------|---------|--------|"

/-- The lines between the separator row and the next blank line. -/
def tableLines (lines : List (List Char)) : List (List Char) :=
  (lines.dropWhile (· ≠ separator.toList)).tail.takeWhile fun line => !line.all isBlank

/-- The line is a row of the table for the finding: it begins and ends with a bar and has five cells
between bars, the first of which holds the name. -/
def RowOf (f : Finding) (line : List Char) : Prop :=
  ∃ cells, pieces false line = [] :: (cells ++ [[]]) ∧ cells.length = 5 ∧
    cells.head? = some ([' ', '\x60'] ++ f.name.toList ++ ['\x60', ' '])

/-- The table has one row for each finding, in order, and no other line. -/
def Tabular (fs : List Finding) (lines : List (List Char)) : Prop :=
  List.Forall₂ RowOf fs (tableLines lines)

/-- The cell of a finding's default. -/
def defaultCell (f : Finding) : String :=
  ((shownDefault f).map fun d => "`" ++ cellText d ++ "`").getD ""

/-- The cells of a finding's row. -/
def cells (f : Finding) : List (List Char) :=
  [[' ', '\x60'] ++ f.name.toList ++ ['\x60', ' '], ' ' :: (capitalYes f.required).toList ++ [' '],
    ' ' :: (capitalYes f.isPublic).toList ++ [' '], ' ' :: (defaultCell f).toList ++ [' '],
    ' ' :: f.source.tag.toList ++ [' ']]

theorem row_eq (f : Finding) : row f =
    "| `" ++ f.name ++ "` | " ++ capitalYes f.required ++ " | " ++ capitalYes f.isPublic ++ " | " ++
      defaultCell f ++ " | " ++ f.source.tag ++ " |" := rfl

theorem row_toList (f : Finding) : (row f).toList = '|' :: (cells f).flatMap (· ++ ['|']) := by
  simp [row_eq, cells]

variable {f : Finding} {c : Census} {b : Breaking}

theorem barless_of_isValid (valid : Name.isValid f.name = true) : Barless f.name.toList := by
  intro x hx
  rcases Name.isTail_of_isValid valid hx with tail | rfl
  · constructor
    · rintro rfl
      exact absurd tail (by decide)
    · rintro rfl
      exact absurd tail (by decide)
  · decide

theorem sealed_spaced (h : Barless cs) : Sealed false (' ' :: cs ++ [' ']) := by
  refine sealed_append (sealed_plain (List.forall_mem_cons.mpr ⟨?_, h⟩)) (sealed_plain ?_)
  · decide
  · decide

theorem sealed_defaultCell (f : Finding) :
    Sealed false (' ' :: (defaultCell f).toList ++ [' ']) := by
  rw [defaultCell]
  cases shownDefault f with
  | none => exact sealed_spaced (List.forall_mem_nil _)
  | some d =>
    have opening : Sealed false [' ', '\x60'] := sealed_plain (by decide)
    have spelled : ' ' :: (((some d).map fun d => "`" ++ cellText d ++ "`").getD "").toList ++
        [' '] = [' ', '\x60'] ++ ((cellText d).toList ++ ['\x60', ' ']) := by simp
    rw [spelled]
    exact sealed_append opening (sealed_cellText false d)

theorem sealed_cells (valid : Name.isValid f.name = true) :
    ∀ cell ∈ cells f, Sealed false cell := by
  have word : ∀ yes, Barless (capitalYes yes).toList := by decide
  have tag : Barless f.source.tag.toList := by cases f.source <;> decide
  have name : Sealed false ([' ', '\x60'] ++ f.name.toList ++ ['\x60', ' ']) := by
    refine sealed_append (sealed_append (sealed_plain (by decide)) ?_) (sealed_plain (by decide))
    exact sealed_plain (barless_of_isValid valid)
  simp only [cells, List.forall_mem_cons]
  exact ⟨name, sealed_spaced (word _), sealed_spaced (word _), sealed_defaultCell f,
    sealed_spaced tag, by simp⟩

/-- A row has the five cells of its finding. -/
theorem pieces_row (valid : Name.isValid f.name = true) :
    pieces false (row f).toList = [] :: (cells f ++ [[]]) := by
  rw [row_toList, pieces, if_pos ⟨rfl, rfl⟩, pieces_cells (sealed_cells valid)]

theorem rowOf_row (valid : Name.isValid f.name = true) : RowOf f (row f).toList :=
  ⟨cells f, pieces_row valid, rfl, rfl⟩

/-- What is left of a row that is broken has fewer cells. -/
theorem not_rowOf_of_broken (valid : Name.isValid f.name = true) {x : Char} (bar : x ≠ '|')
    (blank : x ≠ ' ') (broken : (row f).toList = xs ++ x :: ys) : ¬ RowOf f xs := by
  rintro ⟨found, split, five, -⟩
  have closing : (row f).toList = ("| `" ++ f.name ++ "` | " ++ capitalYes f.required ++ " | " ++
      capitalYes f.isPublic ++ " | " ++ defaultCell f ++ " | " ++ f.source.tag).toList ++
        [' ', '|'] := by
    rw [row_eq, String.toList_append]
    rfl
  obtain ⟨between, front⟩ := split_before (by simp [bar, blank]) (closing.symm.trans broken)
  have whole := length_pieces_bar false (xs ++ x :: between)
  rw [← front, ← closing, pieces_row valid] at whole
  have part := length_pieces_le false xs (x :: between)
  rw [← front, split] at part
  simp only [List.length_cons, List.length_append, List.length_nil, five] at whole part
  have cells_five : (cells f).length = 5 := rfl
  omega

/-! ### The lines of a document -/

/-- The line that counts the variables of a document. -/
def countLine (c : Census) : String :=
  toString c.findings.length ++ " variables found (" ++ toString (c.findings.countP (·.required)) ++
    " required) in " ++ toString c.tally.totalFiles ++ " files."

/-- The lines of a document before the separator row. -/
def opening (c : Census) : List String :=
  ["# Environment Variables", "", countLine c, "",
    "| Variable | Required | Public | Default | Source |"]

theorem text_eq (root : Option Disk.Place) (some : c.findings ≠ []) : text root c =
    "\n".intercalate ((opening c ++ [separator]) ++ (c.findings.map row ++
      "" :: c.findings.flatMap (sectionLines root))) := by
  have full : c.findings.isEmpty = false := by simpa using some
  rw [text, full, if_neg Bool.false_ne_true]
  simp only [List.append_assoc]
  rfl

theorem whole_opening (b : Breaking) (c : Census) : ∀ l ∈ opening c, b.Whole l := by
  have found : b.Whole " variables found (" := whole_of_printed (by decide)
  have required : b.Whole " required) in " := whole_of_printed (by decide)
  have files : b.Whole " files." := whole_of_printed (by decide)
  have count : b.Whole (countLine c) := by
    simp only [countLine, Breaking.whole_append, whole_toString, whole_toString_int, found,
      required, files, and_self]
  have title : b.Whole "# Environment Variables" := whole_of_printed (by decide)
  have empty : b.Whole "" := whole_of_printed (by decide)
  have head : b.Whole "| Variable | Required | Public | Default | Source |" :=
    whole_of_printed (by decide)
  simp only [opening, List.forall_mem_cons]
  exact ⟨title, empty, count, empty, head, List.forall_mem_nil _⟩

/-- The lines before the separator row have blanks or nothing in them; the separator row has no
blanks. -/
theorem separator_not_mem (c : Census) : separator.toList ∉ (opening c).map String.toList := by
  have spaced : ∀ l ∈ opening c, l = "" ∨ ' ' ∈ l.toList := by
    simp [opening, countLine]
  intro mem
  obtain ⟨l, hl, same⟩ := List.mem_map.mp mem
  rcases spaced l hl with rfl | blank
  · exact absurd same (by decide)
  · rw [same] at blank
    exact absurd blank (by decide)

theorem whole_cellText {s : String} : b.Whole (cellText s) ↔ b.Whole s := by
  have slash : b.ends '\\' = false := b.plain _ (by decide)
  have each : ∀ x, (∀ y ∈ (if x == '|' then ['\\', '|'] else [x]), b.ends y = false) ↔
      b.ends x = false := by
    intro x
    by_cases bar : x = '|' <;> simp [bar, slash]
  rw [Breaking.Whole, Breaking.Whole, cellText, String.toList_ofList, List.forall_mem_flatMap]
  exact forall₂_congr fun x _ => each x

/-- A row stands on one line just when the name and the default do. -/
theorem whole_row_iff : b.Whole (row f) ↔ b.Whole f.name ∧ ∀ d ∈ shownDefault f, b.Whole d := by
  have word : ∀ yes, b.Whole (capitalYes yes) := by
    intro yes
    cases yes <;> exact whole_of_printed (by decide)
  have tag : b.Whole f.source.tag := by cases f.source <;> exact whole_of_printed (by decide)
  have default : b.Whole (defaultCell f) ↔ ∀ d ∈ shownDefault f, b.Whole d := by
    rw [defaultCell]
    cases shownDefault f with
    | none => simp [Breaking.Whole]
    | some d =>
      have quote : b.Whole "`" := whole_of_printed (by decide)
      simp [Breaking.whole_append, quote, whole_cellText]
  have bar : b.Whole "| `" ∧ b.Whole "` | " ∧ b.Whole " | " ∧ b.Whole " |" :=
    ⟨whole_of_printed (by decide), whole_of_printed (by decide), whole_of_printed (by decide),
      whole_of_printed (by decide)⟩
  simp only [row_eq, Breaking.whole_append, default, word, tag, bar, and_true, true_and]

/-- The rows of the findings lead the table as long as they are whole. -/
theorem tableLines_text (b : Breaking) (c : Census) {before : List Finding} {more : List String}
    (whole : ∀ f ∈ before, b.Whole (row f)) (ne : more ≠ []) :
    tableLines (b.lines ("\n".intercalate
        ((opening c ++ [separator]) ++ (before.map row ++ more))).toList) =
      before.map (fun f => (row f).toList) ++
        (b.lines ("\n".intercalate more).toList).takeWhile fun line => !line.all isBlank := by
  have leading : ∀ l ∈ opening c ++ [separator] ++ before.map row, b.Whole l := by
    intro l mem
    rw [List.mem_append, List.mem_append, List.mem_singleton, List.mem_map] at mem
    rcases mem with (mem | rfl) | ⟨f, mem, rfl⟩
    · exact whole_opening b c l mem
    · exact whole_of_printed (by decide)
    · exact whole f mem
  have seen : ∀ line ∈ (opening c).map String.toList, decide (line ≠ separator.toList) = true :=
    fun line mem => decide_eq_true fun e => separator_not_mem c (e ▸ mem)
  have filled : ∀ line ∈ before.map fun f => (row f).toList, (!line.all isBlank) = true := by
    intro line mem
    obtain ⟨f, -, rfl⟩ := List.mem_map.mp mem
    rw [row_toList]
    rfl
  rw [← List.append_assoc, Breaking.lines_joined leading ne, tableLines, List.map_append,
    List.map_append, List.map_map, List.append_assoc, List.append_assoc,
    List.dropWhile_append_of_pos seen]
  have found : ([separator].map String.toList ++ (before.map (String.toList ∘ row) ++
      b.lines ("\n".intercalate more).toList)).dropWhile (· ≠ separator.toList) =
      separator.toList :: (before.map (String.toList ∘ row) ++
        b.lines ("\n".intercalate more).toList) := by
    rw [List.map_singleton, List.singleton_append, List.dropWhile_cons_of_neg (by simp)]
  rw [found, List.tail_cons]
  exact List.takeWhile_append_of_pos filled

/-- What is left of a row that is broken is not blank. -/
theorem filled_of_broken {x : Char} (bar : x ≠ '|') (broken : (row f).toList = xs ++ x :: ys) :
    xs.all isBlank = false := by
  rw [row_toList] at broken
  cases xs with
  | nil => exact absurd (List.cons.inj broken).1.symm bar
  | cons y xs =>
    rw [← (List.cons.inj broken).1]
    rfl

/-- A row that is broken leaves a line that is no row of its finding. -/
theorem not_tabular_of_broken {more : List String} {before after : List Finding}
    (valid : Name.isValid f.name = true) (whole : ∀ g ∈ before, b.Whole (row g))
    (broken : ¬ b.Whole (row f)) :
    ¬ Tabular (before ++ f :: after) (b.lines ("\n".intercalate
      ((opening c ++ [separator]) ++ (before.map row ++ row f :: more))).toList) := by
  obtain ⟨front, x, back, rest, split, ends, left⟩ := Breaking.lines_broken broken more
  have printed (same : b.ends x = false) : False := Bool.false_ne_true (same.symm.trans ends)
  have bar : x ≠ '|' := fun same => printed (b.plain x (by rw [same]; decide))
  have blank : x ≠ ' ' := fun same => printed (b.plain x (by rw [same]; decide))
  intro rows
  rw [Tabular, tableLines_text b c whole (List.cons_ne_nil _ _), left,
    List.takeWhile_cons_of_pos (by rw [filled_of_broken bar split]; rfl)] at rows
  have tail := List.forall₂_drop before.length rows
  rw [List.drop_left, List.drop_left' (List.length_map _)] at tail
  cases tail with
  | cons here _ => exact not_rowOf_of_broken valid bar blank split here

/-- The table is well formed just when no row is broken. -/
theorem tabular_iff (b : Breaking) (root : Option Disk.Place)
    (valid : ∀ f ∈ c.findings, Name.isValid f.name = true) (some : c.findings ≠ []) :
    Tabular c.findings (b.lines (text root c).toList) ↔
      ∀ f ∈ c.findings, b.Whole f.name ∧ ∀ d ∈ shownDefault f, b.Whole d := by
  simp only [← whole_row_iff, text_eq root some]
  constructor
  · intro table
    by_contra broken
    obtain ⟨before, f, after, split, whole, here⟩ := exists_first broken
    rw [split] at table valid
    rw [List.map_append, List.map_cons, List.append_assoc (before.map row), List.cons_append]
      at table
    exact not_tabular_of_broken (valid f (by simp)) whole here table
  · intro whole
    have sections : c.findings.flatMap (sectionLines root) ≠ [] := by
      obtain ⟨f, others, e⟩ := List.exists_cons_of_ne_nil some
      rw [e]
      exact List.cons_ne_nil _ _
    have empty : ∀ l ∈ [""], b.Whole l := by simp [Breaking.Whole]
    have closed := Breaking.lines_joined empty sections
    rw [List.singleton_append, List.map_singleton, List.singleton_append] at closed
    rw [Tabular, tableLines_text b c whole (List.cons_ne_nil _ _), closed,
      List.takeWhile_cons_of_neg (by simp), List.append_nil, List.forall₂_map_right_iff,
      List.forall₂_same]
    exact fun f mem => rowOf_row (valid f mem)

/-- The table of a document is well formed, read at every line boundary or at line feeds only, just
when no name and no default that it shows is broken there. -/
theorem table_wellFormed_iff (root : Option Disk.Place) (c : Census)
    (valid : ∀ f ∈ c.findings, f.Valid) (some : c.findings ≠ []) :
    (Tabular c.findings (lines (text root c).toList) ↔
      ∀ f ∈ c.findings, Unbroken f.name.toList ∧ ∀ d ∈ shownDefault f, Unbroken d.toList) ∧
    (Tabular c.findings (feedLines (text root c).toList) ↔
      ∀ f ∈ c.findings, '\n' ∉ f.name.toList ∧ ∀ d ∈ shownDefault f, '\n' ∉ d.toList) := by
  have named : ∀ f ∈ c.findings, Name.isValid f.name = true := fun f mem => (valid f mem).2
  have boundaries := tabular_iff .boundaries root named some
  have feeds := tabular_iff .feeds root named some
  rw [Breaking.lines_boundaries] at boundaries
  simp only [Breaking.lines_feeds, Breaking.whole_feeds_iff] at feeds
  exact ⟨boundaries, feeds⟩

/-- A census of one variable with this default. -/
def withDefault (d : String) : Census where
  findings := [{ name := "A", source := .process, files := [⟨"/app.js", 1, 11, none, none⟩],
                 required := false, defaultValue := some d }]
  tally := { totalFiles := 1, totalFindings := 1 }
  scannedAt := "2024-01-01T00:00:00+00:00"

theorem valid_withDefault (d : String) :
    (∀ f ∈ (withDefault d).findings, f.Valid) ∧ (withDefault d).findings ≠ [] := by
  have named : Name.isValid "A" = true := by decide
  refine ⟨?_, List.cons_ne_nil _ _⟩
  simp only [withDefault, List.forall_mem_singleton]
  exact ⟨List.cons_ne_nil _ _, named⟩

/-- Bars and backslashes in a default leave it in its cell. -/
theorem table_withBars :
    ((∀ f ∈ (withDefault "|a\\|\\").findings, f.Valid) ∧
      (withDefault "|a\\|\\").findings ≠ []) ∧
    Tabular (withDefault "|a\\|\\").findings
      (lines (text none (withDefault "|a\\|\\")).toList) ∧
    Tabular (withDefault "|a\\|\\").findings
      (feedLines (text none (withDefault "|a\\|\\")).toList) := by
  have given := valid_withDefault "|a\\|\\"
  obtain ⟨boundaries, feeds⟩ := table_wellFormed_iff none _ given.1 given.2
  refine ⟨given, boundaries.mpr ?_, feeds.mpr ?_⟩
  · simp only [withDefault, List.forall_mem_singleton]
    exact ⟨by decide, by decide⟩
  · simp only [withDefault, List.forall_mem_singleton]
    exact ⟨by decide, by decide⟩

/-- A default over two lines leaves no table, at whichever characters the lines end. -/
theorem table_withFeed :
    ((∀ f ∈ (withDefault "one\ntwo").findings, f.Valid) ∧
      (withDefault "one\ntwo").findings ≠ []) ∧
    ¬ Tabular (withDefault "one\ntwo").findings
      (lines (text none (withDefault "one\ntwo")).toList) ∧
    ¬ Tabular (withDefault "one\ntwo").findings
      (feedLines (text none (withDefault "one\ntwo")).toList) := by
  have given := valid_withDefault "one\ntwo"
  have broken (b : Breaking) (ends : b.ends '\n' = true) :
      ¬ Tabular (withDefault "one\ntwo").findings
        (b.lines (text none (withDefault "one\ntwo")).toList) := by
    intro table
    have whole := (tabular_iff b none (fun f mem => (given.1 f mem).2) given.2).mp table
    have feed := (whole _ List.mem_cons_self).2 _ rfl '\n' (by decide)
    rw [ends] at feed
    cases feed
  exact ⟨given, broken .boundaries rfl, broken .feeds rfl⟩

end EnvCensus.Report.Markdown
