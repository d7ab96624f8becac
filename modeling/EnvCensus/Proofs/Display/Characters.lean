import EnvCensus.Display.Table
import EnvCensus.Proofs.Text.Blank
import EnvCensus.Proofs.Text.Half
import Mathlib.Data.List.Zip

/-!
# What a layout shows

A layout cuts texts, folds them and puts blanks and strokes around them. All
that it shows beside these is what it was given, so what is laid out from whole
texts is whole.
-/

namespace EnvCensus.Display

open Text

variable [Halves] [LawfulHalves] {cs title content : List Char} {width : Nat} {overflow : Overflow}
  {justify : Justify}

theorem whole_blanks (n : Nat) : Whole (blanks n) := whole_replicate n (by decide)

/-! ### Lines -/

omit [LawfulHalves] in
theorem whole_cutFrom {done : List Char} (room : Nat) (before : Whole done) (h : Whole cs) :
    Whole (cutFrom room done cs) := by
  induction cs generalizing done with
  | nil => exact before.of_subset (List.reverse_subset.mpr (List.Subset.refl _))
  | cons c cs ih =>
    obtain ⟨first, rest⟩ := whole_cons.mp h
    rw [cutFrom]
    split
    · exact ih (whole_cons.mpr ⟨first, before⟩) rest
    · exact before.of_subset (List.reverse_subset.mpr (List.Subset.refl _))

theorem whole_fit (width : Nat) (h : Whole cs) : Whole (fit width cs) := by
  unfold fit
  split
  · exact whole_append.mpr ⟨h, whole_blanks _⟩
  · exact whole_append.mpr ⟨whole_cutFrom width whole_nil h, whole_blanks _⟩

theorem whole_expandTabs (position : Nat) (h : Whole cs) : Whole (expandTabs position cs) := by
  fun_induction expandTabs position cs with
  | case1 => exact h
  | case2 position rest next ih =>
    exact whole_append.mpr ⟨whole_blanks _, ih (whole_cons.mp h).2⟩
  | case3 position c rest _ ih =>
    exact whole_cons.mpr ⟨(whole_cons.mp h).1, ih (whole_cons.mp h).2⟩

omit [LawfulHalves] in
theorem whole_divide (start : Nat) (places : List Nat) (h : Whole cs) :
    ∀ part ∈ divide start places cs, Whole part := by
  fun_induction divide start places cs with
  | case1 start cs => exact List.forall_mem_singleton.mpr h
  | case2 start cs p rest _ ih => exact ih h
  | case3 start cs p rest _ ih =>
    exact List.forall_mem_cons.mpr ⟨h.of_subset (List.take_subset _ _),
      ih (h.of_subset (List.drop_subset _ _))⟩

theorem whole_truncate (width : Nat) (overflow : Overflow) (h : Whole cs) :
    Whole (truncate width overflow cs) := by
  unfold truncate
  split
  · exact h
  · cases overflow with
    | fold => exact whole_fit width h
    | ellipsis => exact whole_append.mpr ⟨whole_fit _ h, whole_of_all (by decide)⟩

omit [LawfulHalves] in
theorem whole_trimRight (h : Whole cs) : Whole (trimRight cs) :=
  h.of_subset (trimRight_sublist cs).subset

theorem whole_justified (width : Nat) (overflow : Overflow) (justify : Justify) (h : Whole cs) :
    Whole (justified width overflow justify cs) := by
  cases justify with
  | free => exact h
  | left => exact whole_append.mpr ⟨whole_truncate _ _ h, whole_blanks _⟩
  | center =>
    exact whole_append.mpr ⟨whole_append.mpr
      ⟨whole_blanks _, whole_truncate _ _ (whole_trimRight h)⟩, whole_blanks _⟩
  | right => exact whole_append.mpr ⟨whole_blanks _, whole_truncate _ _ (whole_trimRight h)⟩

omit [LawfulHalves] in
theorem whole_feedLines (h : Whole cs) : ∀ line ∈ feedLines cs, Whole line := by
  fun_induction feedLines cs with
  | case1 => exact List.forall_mem_singleton.mpr h
  | case2 cs c rest cut _ ih =>
    have later : Whole (c :: rest) := h.of_subset (cut ▸ List.dropWhile_subset _)
    exact List.forall_mem_cons.mpr
      ⟨h.of_subset (List.takeWhile_subset _), ih (whole_cons.mp later).2⟩

theorem whole_wrap (width : Nat) (overflow : Overflow) (justify : Justify) (h : Whole cs) :
    ∀ line ∈ wrap width overflow justify cs, Whole line := by
  intro line hline
  obtain ⟨source, hsource, hline⟩ := List.mem_flatMap.mp hline
  obtain ⟨part, hpart, rfl⟩ := List.mem_map.mp hline
  have whole := whole_divide _ _ (whole_expandTabs 0 (whole_feedLines h source hsource)) part hpart
  exact whole_truncate _ _ (whole_justified _ _ _ (whole.of_subset (List.take_subset _ _)))

/-! ### Panels -/

theorem whole_titleLine (width : Nat) (h : Whole title) : Whole (titleLine width title) := by
  have stroke (n : Nat) : Whole (List.replicate n '─') := whole_replicate n (by decide)
  have shown : Whole (' ' :: title ++ [' ']) := by
    simp [h, isHalf_eq_false (show isSpare ' ' = false by decide)]
  exact whole_append.mpr ⟨whole_append.mpr ⟨stroke _, whole_truncate _ _ shown⟩, stroke _⟩

/-- A panel shows its title and its content between strokes. -/
theorem whole_panel (width : Nat) (titled : Whole title) (filled : Whole content) :
    ∀ line ∈ panel width title content, Whole line := by
  have strokes (n : Nat) : Whole (List.replicate n '─') := whole_replicate n (by decide)
  have top : Whole (if width ≤ 4 then List.replicate (width - 2) '─'
      else '─' :: titleLine (width - 4) title ++ ['─']) := by
    split
    · exact strokes _
    · have stroke : Halves.isHalf '─' = false := isHalf_eq_false (by decide)
      simp [stroke, whole_titleLine _ titled]
  have corner {c : Char} (h : isSpare c = false) : Whole [c] :=
    whole_cons.mpr ⟨isHalf_eq_false h, whole_nil⟩
  have edge : Whole ['│', ' '] ∧ Whole [' ', '│'] :=
    ⟨whole_of_all (by decide), whole_of_all (by decide)⟩
  refine List.forall_mem_append.mpr ⟨List.forall_mem_cons.mpr ⟨?_, fun line hline => ?_⟩,
    List.forall_mem_singleton.mpr ?_⟩
  · exact whole_append.mpr ⟨whole_append.mpr ⟨corner (by decide : isSpare '╭' = false), top⟩,
      corner (by decide)⟩
  · obtain ⟨inner, hinner, rfl⟩ := List.mem_map.mp hline
    have shown := whole_fit (width - 4) (whole_wrap _ _ _ filled inner hinner)
    exact whole_append.mpr ⟨whole_append.mpr ⟨edge.1, shown⟩, edge.2⟩
  · exact whole_append.mpr ⟨whole_append.mpr ⟨corner (by decide : isSpare '╰' = false), strokes _⟩,
      corner (by decide)⟩

/-! ### Tables -/

namespace Table

variable {t : Table} {columns : List (Nat × Justify)} {row lines pieces : List (List Char)}
  {edge left between right : List Char}

theorem whole_cellLines (width : Nat) (justify : Justify) (h : Whole cs) :
    ∀ line ∈ cellLines width justify cs, Whole line := by
  intro line hline
  obtain ⟨source, hsource, rfl⟩ := List.mem_map.mp hline
  have blank : Whole [' '] := whole_of_all (by decide)
  have shown := whole_fit (width - padding) (whole_wrap _ _ _ h source hsource)
  exact whole_fit _ (whole_append.mpr ⟨whole_append.mpr ⟨blank, shown⟩, blank⟩)

theorem whole_stretched (header : Bool) (height width : Nat) (h : ∀ line ∈ lines, Whole line) :
    ∀ line ∈ stretched header height width lines, Whole line := by
  have gap : ∀ line ∈ List.replicate (height - lines.length) (blanks width), Whole line := by
    intro line hline
    rw [(List.mem_replicate.mp hline).2]
    exact whole_blanks _
  unfold stretched
  split
  · exact List.forall_mem_append.mpr ⟨gap, h⟩
  · exact List.forall_mem_append.mpr ⟨h, gap⟩

omit [LawfulHalves] in
theorem whole_joined (first : Whole left) (among : Whole between) (last : Whole right)
    (each : ∀ piece ∈ pieces, Whole piece) : Whole (joined left between right pieces) := by
  have inner : Whole (between.intercalate pieces) := by
    induction pieces with
    | nil => exact whole_nil
    | cons piece pieces ih =>
      obtain ⟨own, others⟩ := List.forall_mem_cons.mp each
      cases pieces with
      | nil => simpa using own
      | cons next pieces =>
        rw [List.intercalate_cons_cons, whole_append, whole_append]
        exact ⟨⟨own, among⟩, ih others⟩
  exact whole_append.mpr ⟨whole_append.mpr ⟨first, inner⟩, last⟩

theorem whole_rowLines (header : Bool) (edged : Whole edge) (each : ∀ cell ∈ row, Whole cell) :
    ∀ line ∈ rowLines edge header columns row, Whole line := by
  intro line hline
  obtain ⟨i, -, rfl⟩ := List.mem_map.mp hline
  refine whole_joined edged edged edged fun piece hpiece => ?_
  obtain ⟨full, hfull, rfl⟩ := List.mem_map.mp hpiece
  obtain ⟨⟨w, shaped⟩, hshaped, rfl⟩ := List.mem_map.mp hfull
  rw [← List.map_uncurry_zip_eq_zipWith] at hshaped
  obtain ⟨⟨⟨w', j⟩, cell⟩, hcell, e⟩ := List.mem_map.mp hshaped
  cases e
  have shown := whole_cellLines w j (each cell (List.of_mem_zip hcell).2)
  rw [List.getD_eq_getElem?_getD]
  cases there : (stretched header _ w (cellLines w j cell))[i]? with
  | none => exact whole_nil
  | some piece => exact whole_stretched _ _ _ shown piece (List.mem_of_getElem? there)

theorem whole_ruleLine {left stroke between right : Char} (widths : List Nat)
    (plain : ([left, stroke, between, right].all fun c => !isSpare c) = true) :
    Whole (ruleLine left stroke between right widths) := by
  have one : ∀ c ∈ [left, stroke, between, right], isSpare c = false := by
    simpa using List.all_eq_true.mp plain
  have alone {c : Char} (h : c ∈ [left, stroke, between, right]) : Whole [c] :=
    whole_cons.mpr ⟨isHalf_eq_false (one c h), whole_nil⟩
  refine whole_joined (alone (by simp)) (alone (by simp)) (alone (by simp)) fun piece hpiece => ?_
  obtain ⟨w, -, rfl⟩ := List.mem_map.mp hpiece
  exact whole_replicate w (one stroke (by simp))

/-- A table shows its headers and its cells between strokes. -/
theorem whole_lines (width : Nat) (headers : ∀ c ∈ t.columns, Whole c.header.toList)
    (cells : ∀ row ∈ t.rows, ∀ cell ∈ row, Whole cell) : ∀ line ∈ t.lines width, Whole line := by
  have head : ∀ cell ∈ t.columns.map fun c => c.header.toList, Whole cell :=
    List.forall_mem_map.mpr headers
  have body {edge : List Char} (edged : Whole edge) (columns : List (Nat × Justify)) :
      ∀ line ∈ t.rows.flatMap (rowLines edge false columns), Whole line := by
    intro line hline
    obtain ⟨row, hrow, hline⟩ := List.mem_flatMap.mp hline
    exact whole_rowLines false edged (cells row hrow) line hline
  unfold lines
  split
  · simp only [List.forall_mem_append, List.forall_mem_cons, List.cons_append]
    exact ⟨whole_ruleLine _ (by decide), ⟨whole_rowLines true (whole_of_all (by decide)) head,
      whole_ruleLine _ (by decide), body (whole_of_all (by decide)) _⟩,
      whole_ruleLine _ (by decide), by simp⟩
  · exact List.forall_mem_append.mpr ⟨whole_rowLines true whole_nil head, body whole_nil _⟩

end Table

end EnvCensus.Display
