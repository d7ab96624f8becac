import EnvCensus.Proofs.Display.Sequence
import EnvCensus.Proofs.Dotenv.Kept
import EnvCensus.Proofs.Report.Value

/-!
# Values with and without the quotes of a report

A report puts a value between double quotes where the reader would change it
otherwise; a printed list puts it down as it is. Both are read alike just when
the quotes make no difference: the value has nothing to escape, and without them
the reader finds in it no blanks to trim, no comment and no quotes to strip.
-/

namespace EnvCensus.Report.EnvExample

open Dotenv Text
open Display (withoutSequences withoutSequences_append withoutSequences_nil
  withoutSequences_of_no_escape withoutSequences_sublist count_withoutSequences)

variable {d : String} {c : Char} {cs u w inner rest : List Char}

/-- Without quotes around it the text is read as it is between double quotes. -/
structure Bare (cs : List Char) : Prop where
  unescaped : Unescaped cs
  trimmed : trim cs = cs
  uncommented : ∀ front after, cs = front ++ '#' :: after → ¬ Even (front.count '\'')
  unwrapped : ∀ inner, cs ≠ '\'' :: (inner ++ ['\''])

/-- The value is printed whole and needs no quotes, or can do without them. -/
structure ReadsAlike (d : String) : Prop where
  whole : withoutSequences d.toList = d.toList
  bare : needsQuotes d.toList = true → Bare d.toList

theorem readsAlike_empty : ReadsAlike "" :=
  ⟨withoutSequences_nil, fun quoted => absurd quoted (by decide)⟩

/-- What needs quotes has a character that stands in no placeholder. -/
theorem foreign_of_needsQuotes (h : needsQuotes cs = true) :
    ∃ c ∈ cs, Name.isTail c = false ∧ c ≠ '.' := by
  by_cases blank : ∃ c ∈ cs, isBlank c = true
  · obtain ⟨c, mem, blank⟩ := blank
    refine ⟨c, mem, ?_, ?_⟩
    · by_contra tail
      rw [Name.isBlank_of_isTail (eq_true_of_ne_false tail)] at blank
      cases blank
    · rintro rfl
      cases blank
  · have trimmed : trim cs = cs := by
      refine trim_of_no_blank fun c hc => ?_
      by_contra shown
      exact blank ⟨c, hc, eq_true_of_ne_false shown⟩
    rw [needsQuotes, trimmed, bne_self_eq_false, Bool.or_false, List.any_eq_true] at h
    obtain ⟨c, mem, special⟩ := h
    have known : ([' ', '#', '\t', '"', '\''].all fun q => !Name.isTail q && q != '.') = true := by
      decide
    have foreign := List.all_eq_true.mp known c (List.contains_iff_mem.mp special)
    exact ⟨c, mem, by simpa using foreign⟩

theorem real_of_needsQuotes (h : needsQuotes d.toList = true) :
    d ≠ "" ∧ isPlaceholder d = false := by
  obtain ⟨c, mem, foreign, point⟩ := foreign_of_needsQuotes h
  exact real_of_mem mem foreign point

/-! ### Values that are printed whole -/

/-- A value that is read in a part of what is printed was printed whole, and the part is all of
it. -/
theorem whole_of_value (given : parseValue u = some d)
    (part : u.Sublist (withoutSequences d.toList)) :
    withoutSequences d.toList = d.toList ∧ u = d.toList := by
  have read := value_sublist given
  have printed := withoutSequences_sublist d.toList
  have same : u = d.toList := (part.trans printed).antisymm read
  exact ⟨printed.antisymm (same ▸ part), same⟩

theorem part_of_kept (printed : Kept (trimRight (withoutSequences cs)) u) :
    u.Sublist (withoutSequences cs) :=
  printed.sublist.trans (trimRight_sublist _)

/-- A value that needs no quotes is read alike just when it is printed whole. -/
theorem value_unquoted_iff (unquoted : needsQuotes d.toList = false)
    (printed : Kept (trimRight (withoutSequences d.toList)) u) :
    parseValue u = parseValue d.toList ↔ withoutSequences d.toList = d.toList := by
  obtain ⟨hashless, plain, trimmed⟩ := plain_of_unquoted unquoted
  have stripped := stripQuotes_plain plain
  constructor
  · intro same
    by_contra lost
    have escape : '\x1b' ∈ d.toList := by
      by_contra none
      exact lost (withoutSequences_of_no_escape none)
    obtain ⟨nonempty, real⟩ := real_of_mem escape (by decide) (by decide)
    have given : parseValue d.toList = some d := by
      rw [parseValue, trimmed, stripped, String.ofList_toList]
      simp [nonempty, real]
    exact lost (whole_of_value (same.trans given) (part_of_kept printed)).1
  · intro whole
    rw [whole, trimRight_of_trim trimmed] at printed
    rw [printed.eq_of_no_hash hashless]

/-! ### Escapes -/

/-- Escapes are backslashes, and no other character is written more than once. -/
theorem count_escaped (other : c ≠ '\\') (cs : List Char) :
    (cs.flatMap escaped).count c = cs.count c := by
  induction cs with
  | nil => rfl
  | cons b cs ih =>
    rw [List.flatMap_cons, List.count_append, ih, List.count_cons, escaped]
    split
    · simp [List.count_cons, Ne.symm other, Nat.add_comm]
    · simp [List.count_cons, Nat.add_comm]

/-- A hash in what was written is a hash of the value. -/
theorem split_escaped (split : cs.flatMap escaped = inner ++ '#' :: rest) :
    ∃ front after, cs = front ++ '#' :: after ∧ inner = front.flatMap escaped := by
  induction cs generalizing inner with
  | nil => simp at split
  | cons b cs ih =>
    rw [List.flatMap_cons] at split
    -- No escape has a hash in it, so a hash is one of the text itself.
    by_cases hash : b = '#'
    · subst hash
      cases inner with
      | nil => exact ⟨[], cs, rfl, rfl⟩
      | cons a inner =>
        obtain ⟨rfl, behind⟩ := List.cons.inj split
        obtain ⟨front, after, rfl, rfl⟩ := ih behind
        exact ⟨'#' :: front, after, rfl, rfl⟩
    · have absent : '#' ∉ escaped b := by
        rw [escaped]
        split <;> simp [Ne.symm hash]
      obtain ⟨between, rfl, behind⟩ := split_behind absent split
      obtain ⟨front, after, rfl, rfl⟩ := ih behind
      exact ⟨b :: front, after, rfl, rfl⟩

theorem length_lt_escaped (escapes : ¬ Unescaped cs) :
    cs.length < (cs.flatMap escaped).length := by
  have some : 0 < cs.countP fun c => c == '\\' || c == '"' := by
    rw [List.countP_pos_iff]
    by_contra none
    apply escapes
    constructor
    · exact fun mem => none ⟨_, mem, rfl⟩
    · exact fun mem => none ⟨_, mem, rfl⟩
  rw [length_escaped]
  omega

theorem slash_mem_escaped (escapes : ¬ Unescaped cs) : '\\' ∈ cs.flatMap escaped := by
  by_contra none
  apply escapes
  constructor
  · exact fun mem => none (List.mem_flatMap.mpr ⟨_, mem, List.mem_cons_self⟩)
  · exact fun mem => none (List.mem_flatMap.mpr ⟨_, mem, List.mem_cons_self⟩)

/-- Where a comment opens between the quotes of a report, the number of double quotes before it is
odd in the value. -/
theorem odd_of_comment (quoted : needsQuotes d.toList = true)
    (split : (valueText d).toList = w ++ '#' :: rest) (closed : Closed w) :
    ∃ front after, d.toList = front ++ '#' :: after ∧ w = '"' :: front.flatMap escaped ∧
      ¬ Even (front.count '"') := by
  rw [valueText_quoted quoted] at split
  cases w with
  | nil => cases split
  | cons q inner =>
    obtain ⟨rfl, behind⟩ := List.cons.inj split
    obtain ⟨between, cut⟩ := split_before (by decide) behind
    obtain ⟨front, after, whole, rfl⟩ := split_escaped cut
    refine ⟨front, after, whole, rfl, fun even => ?_⟩
    have other := closed '"' rfl
    rw [List.count_cons_self, count_escaped (by decide)] at other
    exact Nat.even_add_one.mp other even

/-! ### Values between quotes -/

/-- A value that is put between quotes and has nothing to escape is read back. -/
theorem value_between_quotes (quoted : needsQuotes d.toList = true) (plain : Unescaped d.toList)
    (written : Kept (valueText d).toList w) : parseValue w = some d := by
  have same : reread d = d := reread_eq_self_iff.mpr fun _ => plain
  obtain ⟨nonempty, real⟩ := real_of_needsQuotes quoted
  have all : w = (valueText d).toList := by
    cases written with
    | whole => rfl
    | before split closed =>
      obtain ⟨front, after, whole, -, odd⟩ := odd_of_comment quoted split closed
      have none : '"' ∉ front := fun mem => plain.1 (whole ▸ List.mem_append_left _ mem)
      exact absurd (List.count_eq_zero_of_not_mem none ▸ Even.zero) odd
  rw [all, parseValue_valueText, same]
  simp [nonempty, real]

/-- A value that is read as it stands has no layer of quotes and no blanks at its ends. -/
theorem bare_of_value (given : parseValue d.toList = some d) :
    trim d.toList = d.toList ∧
      ∀ q inner, isQuote q = true → d.toList ≠ q :: (inner ++ [q]) := by
  have unwrapped : stripQuotes (trim d.toList) = d.toList := by
    cases parseValue_eq_iff.mp given with
    | value unwrapped => exact stripQuotes_eq_iff.mpr unwrapped
  by_cases wrapped : ∃ q inner, isQuote q = true ∧ trim d.toList = q :: (inner ++ [q])
  · obtain ⟨q, inner, quote, layer⟩ := wrapped
    have short := (trim_sublist d.toList).length_le
    rw [layer] at short
    rw [layer, ← List.cons_append, stripQuotes_quoted quote] at unwrapped
    rw [unwrapped, List.length_cons, List.length_append] at short
    omega
  · have none : ∀ q inner, isQuote q = true → trim d.toList ≠ q :: (inner ++ [q]) :=
      fun q inner quote layer => wrapped ⟨q, inner, quote, layer⟩
    have trimmed : trim d.toList = d.toList := (stripQuotes_bare none).symm.trans unwrapped
    exact ⟨trimmed, trimmed ▸ none⟩

/-- The reader finds the value itself in what is printed just when the value is bare. -/
theorem value_bare_iff (plain : Unescaped d.toList) (real : d ≠ "" ∧ isPlaceholder d = false)
    (printed : Kept (trimRight (withoutSequences d.toList)) u) :
    parseValue u = some d ↔ withoutSequences d.toList = d.toList ∧ Bare d.toList := by
  constructor
  · intro given
    obtain ⟨whole, rfl⟩ := whole_of_value given (part_of_kept printed)
    obtain ⟨trimmed, unwrapped⟩ := bare_of_value given
    refine ⟨whole, plain, trimmed, ?_, fun inner => unwrapped '\'' inner rfl⟩
    intro front after split even
    rw [whole, trimRight_of_trim trimmed] at printed
    -- Without double quotes the single ones alone decide what a hash opens.
    have closed : Closed front := by
      intro p quote
      rcases isQuote_iff.mp quote with rfl | rfl
      · have none : front.count '"' = 0 :=
          List.count_eq_zero_of_not_mem fun mem => plain.1 (split ▸ List.mem_append_left _ mem)
        exact none ▸ Even.zero
      · exact even
    exact printed.opened rfl split closed
  · rintro ⟨whole, bare⟩
    rw [whole, trimRight_of_trim bare.trimmed] at printed
    have all : u = d.toList := by
      cases printed with
      | whole => rfl
      | before split closed => exact absurd (closed '\'' rfl) (bare.uncommented _ _ split)
    have unwrapped : ∀ q inner, isQuote q = true → d.toList ≠ q :: (inner ++ [q]) := by
      intro q inner quote layer
      rcases isQuote_iff.mp quote with rfl | rfl
      · exact plain.1 (layer ▸ List.mem_cons_self)
      · exact bare.unwrapped inner layer
    rw [all, parseValue, bare.trimmed, stripQuotes_bare unwrapped, String.ofList_toList]
    simp [real]

/-- A value with escapes is not read alike: the report keeps a backslash more, or its comment opens
at a hash that the bare value hides between quotes. -/
theorem value_escaped_ne (quoted : needsQuotes d.toList = true) (escapes : ¬ Unescaped d.toList)
    (printed : Kept (trimRight (withoutSequences d.toList)) u)
    (written : Kept (valueText d).toList w) : parseValue u ≠ parseValue w := by
  intro same
  cases written with
  | whole =>
    -- The report gives the value with its escapes, which is longer than all that is printed.
    have rereads : (reread d).toList = d.toList.flatMap escaped := by
      rw [reread, if_pos quoted, String.toList_ofList]
    obtain ⟨nonempty, real⟩ :=
      real_of_mem (rereads ▸ slash_mem_escaped escapes) (by decide) (by decide)
    have given : parseValue (valueText d).toList = some (reread d) := by
      rw [parseValue_valueText]
      simp [nonempty, real]
    have read := (value_sublist (same.trans given)).length_le
    have part := (part_of_kept printed).length_le
    have shown := (withoutSequences_sublist d.toList).length_le
    have longer := length_lt_escaped escapes
    rw [rereads] at read
    omega
  | before split closed =>
    -- The report gives what stands before a hash. What is printed would have to end at the same
    -- hash to have as many of them, and there a quote of the value is open.
    obtain ⟨front, after, whole, rfl, odd⟩ := odd_of_comment quoted split closed
    have quote : '"' ∈ front := by
      by_contra none
      exact odd (List.count_eq_zero_of_not_mem none ▸ Even.zero)
    have slash : '\\' ∈ '"' :: front.flatMap escaped :=
      List.mem_cons_of_mem _ (slash_mem_escaped fun plain => plain.1 quote)
    obtain ⟨v, given⟩ := exists_value slash (by decide) (by decide) (by decide) (by decide)
    have hashes : u.count '#' = (withoutSequences front).count '#' := by
      have read := count_value given (c := '#') (by decide) (by decide)
      rw [count_value (same.trans given) (by decide) (by decide),
        List.count_cons_of_ne (by decide), count_escaped (by decide)] at read
      rw [read, count_withoutSequences (by decide)]
    have parted : trimRight (withoutSequences d.toList) =
        withoutSequences front ++ '#' :: trimRight (withoutSequences after) := by
      rw [whole, withoutSequences_append (by decide), trimRight_append rfl]
    have even := printed.closed_of_count parted hashes '"' rfl
    rw [count_withoutSequences (by decide)] at even
    exact odd even

/-! ### Both readings -/

/-- The value that is printed and the value in the report are read alike just when the value is
printed whole and needs no quotes or can do without them. -/
theorem values_alike_iff (printed : Kept (trimRight (withoutSequences d.toList)) u)
    (written : Kept (valueText d).toList w) :
    parseValue u = parseValue w ↔ ReadsAlike d := by
  cases quoted : needsQuotes d.toList with
  | false =>
    have plain := plain_of_unquoted quoted
    rw [valueText_unquoted quoted] at written
    rw [written.eq_of_no_hash plain.1, value_unquoted_iff quoted printed]
    constructor
    · intro whole
      refine ⟨whole, fun needed => ?_⟩
      rw [quoted] at needed
      cases needed
    · exact fun alike => alike.whole
  | true =>
    by_cases plain : Unescaped d.toList
    · rw [value_between_quotes quoted plain written,
        value_bare_iff plain (real_of_needsQuotes quoted) printed]
      constructor
      · rintro ⟨whole, bare⟩
        exact ⟨whole, fun _ => bare⟩
      · exact fun alike => ⟨alike.whole, alike.bare quoted⟩
    · constructor
      · exact fun same => absurd same (value_escaped_ne quoted plain printed written)
      · exact fun alike => absurd (alike.bare quoted).unescaped plain

end EnvCensus.Report.EnvExample
