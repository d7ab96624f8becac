import EnvCensus.Proofs.Dotenv.Declaration
import EnvCensus.Proofs.Text.Lines
import EnvCensus.Report.Format

/-!
# Written values

A value that is written without quotes is read back as it was. A value between
quotes is read back without its quotes and with its escapes, so it is the same
value just when it needed no escapes.
-/

namespace EnvCensus.Report.EnvExample

open Dotenv Text

variable {name value : String} {cs : List Char}

/-- No character of the text is escaped between quotes. -/
def Unescaped (cs : List Char) : Prop := '"' ∉ cs ∧ '\\' ∉ cs

instance (cs : List Char) : Decidable (Unescaped cs) := inferInstanceAs (Decidable (_ ∧ _))

theorem length_escaped (cs : List Char) : (cs.flatMap escaped).length =
    cs.length + cs.countP (fun c => c == '\\' || c == '"') := by
  induction cs with
  | nil => rfl
  | cons c cs ih =>
    rw [List.flatMap_cons, List.length_append, ih, List.countP_cons, List.length_cons, escaped]
    split
    · simp only [List.length_cons, List.length_nil]
      omega
    · simp only [List.length_cons, List.length_nil]
      omega

theorem escaped_eq_self_iff : cs.flatMap escaped = cs ↔ Unescaped cs := by
  constructor
  · intro same
    have count : cs.countP (fun c => c == '\\' || c == '"') = 0 := by
      have length := length_escaped cs
      rw [same] at length
      omega
    have plain := List.countP_eq_zero.mp count
    constructor
    · exact fun h => plain _ h rfl
    · exact fun h => plain _ h rfl
  · rintro ⟨quotes, slashes⟩
    refine (List.flatMap_congr fun c hc => ?_).trans (List.flatMap_singleton' cs)
    have other : c ≠ '\\' ∧ c ≠ '"' :=
      ⟨fun e => slashes (e ▸ hc), fun e => quotes (e ▸ hc)⟩
    simp [escaped, other]

/-! ### Both forms -/

theorem valueText_unquoted (h : needsQuotes value.toList = false) : valueText value = value := by
  rw [valueText, if_neg (by rw [h]; exact Bool.false_ne_true)]

theorem valueText_quoted (h : needsQuotes value.toList = true) :
    (valueText value).toList = '"' :: value.toList.flatMap escaped ++ ['"'] := by
  rw [valueText, if_pos h, String.toList_ofList]

/-- What needs no quotes has none, opens no comment and has no blanks at its ends. -/
theorem plain_of_unquoted (h : needsQuotes cs = false) :
    '#' ∉ cs ∧ (∀ c ∈ cs, isQuote c = false) ∧ trim cs = cs := by
  rw [needsQuotes, Bool.or_eq_false_iff, List.any_eq_false, bne_eq_false_iff_eq] at h
  obtain ⟨plain, trimmed⟩ := h
  refine ⟨fun hash => plain _ hash rfl, fun c hc => ?_, trimmed.symm⟩
  cases quote : isQuote c with
  | false => rfl
  | true =>
    rcases isQuote_iff.mp quote with rfl | rfl
    · exact absurd rfl (plain _ hc)
    · exact absurd rfl (plain _ hc)

/-- The written form of a value ends in no blank. -/
theorem trimRight_valueText (value : String) :
    trimRight (valueText value).toList = (valueText value).toList := by
  cases h : needsQuotes value.toList with
  | false =>
    rw [valueText_unquoted h]
    exact trimRight_of_trim (plain_of_unquoted h).2.2
  | true =>
    rw [valueText_quoted h]
    exact trimRight_append rfl _ []

/-- What stands for a value where it has been written and is read again. -/
def reread (value : String) : String :=
  if needsQuotes value.toList then String.ofList (value.toList.flatMap escaped) else value

theorem reread_eq_self_iff :
    reread value = value ↔ (needsQuotes value.toList = true → Unescaped value.toList) := by
  rw [reread]
  split
  · rename_i quoted
    rw [← escaped_eq_self_iff, ← String.toList_inj, String.toList_ofList]
    exact ⟨fun same _ => same, fun same => same quoted⟩
  · rename_i unquoted
    exact ⟨fun _ quoted => absurd quoted unquoted, fun _ => rfl⟩

theorem parseValue_valueText (value : String) :
    parseValue (valueText value).toList =
      if reread value == "" || isPlaceholder (reread value) then none else some (reread value) := by
  cases h : needsQuotes value.toList with
  | false =>
    obtain ⟨-, plain, trimmed⟩ := plain_of_unquoted h
    rw [valueText_unquoted h, parseValue, trimmed, stripQuotes_plain plain, String.ofList_toList,
      reread, h]
    rfl
  | true =>
    have trimmed : trim ('"' :: value.toList.flatMap escaped ++ ['"']) =
        '"' :: value.toList.flatMap escaped ++ ['"'] := by
      rw [List.cons_append, trim_cons rfl, trimRight_append rfl]
      rfl
    rw [valueText_quoted h, parseValue, trimmed, stripQuotes_quoted rfl, reread, h]
    rfl

/-- No written form has a comment unless it has escapes. -/
theorem commentStart_valueText (unescaped : needsQuotes value.toList = true → Unescaped value.toList)
    (before : List Char) :
    commentStart before true true (valueText value).toList = none := by
  cases h : needsQuotes value.toList with
  | false =>
    rw [valueText_unquoted h]
    exact commentStart_none (plain_of_unquoted h).1
  | true =>
    rw [valueText_quoted h, escaped_eq_self_iff.mpr (unescaped h), List.cons_append, commentStart,
      if_neg (by simp)]
    exact commentStart_quoted (unescaped h).1

/-- A comment that opens between quotes has the last quote. -/
theorem trim_comment_ne_nil (quoted : needsQuotes value.toList = true)
    {before front after : List Char} {single double : Bool}
    (start : commentStart before single double (valueText value).toList = some (front, after)) :
    trim after ≠ [] := by
  obtain ⟨passed, e, -⟩ := commentStart_split start
  have last := congrArg List.getLast? e
  rw [valueText_quoted quoted, List.getLast?_concat, List.getLast?_append_cons] at last
  cases after with
  | nil => cases last
  | cons c after =>
    rw [List.getLast?_cons_cons] at last
    exact trim_ne_nil (by decide) (List.mem_of_getLast? last.symm)

/-- A written form breaks only where the value does. -/
theorem unbroken_valueText (line : Unbroken value.toList) :
    Unbroken (valueText value).toList := by
  cases h : needsQuotes value.toList with
  | false =>
    rw [valueText_unquoted h]
    exact line
  | true =>
    rw [valueText_quoted h, List.cons_append]
    refine List.forall_mem_cons.mpr ⟨by decide, unbroken_append.mpr ⟨?_, by decide⟩⟩
    intro c hc
    obtain ⟨d, hd, hc⟩ := List.mem_flatMap.mp hc
    rw [escaped] at hc
    split at hc
    · rcases List.mem_pair.mp hc with rfl | rfl
      · decide
      · exact line _ hd
    · exact List.mem_singleton.mp hc ▸ line d hd

/-- What is written for a value is read as the same value, or as none where the value only holds
the place of one. -/
theorem parseLine_valueText (exact : Name.Exact name) (line : Unbroken value.toList)
    (same : reread value = value) (number : Nat) :
    parseLine (name ++ "=" ++ valueText value).toList number =
      some { name, line := number
             value := if value == "" || isPlaceholder value then none else some value } := by
  have bare := commentStart_valueText (reread_eq_self_iff.mp same) ('=' :: name.toList.reverse)
  rw [← trimRight_valueText] at bare
  have parsed := parseLine_uncommented exact (unbroken_valueText line).no_feed bare number
  rw [trimRight_valueText, parseValue_valueText, same] at parsed
  simpa using parsed

/-- A value that stands on one line and is no placeholder is read back from its written form just
when it has no character to escape, or needs no quotes. -/
theorem parseLine_valueText_iff (exact : Name.Exact name) (nonempty : value ≠ "")
    (line : Unbroken value.toList) (real : isPlaceholder value = false) (number : Nat) :
    parseLine (name ++ "=" ++ valueText value).toList number =
        some { name, value := some value, comment := none, line := number } ↔
      (needsQuotes value.toList = true → '"' ∉ value.toList ∧ '\\' ∉ value.toList) := by
  constructor
  · intro parsed
    by_contra escapes
    have quoted : needsQuotes value.toList = true := by
      by_contra unquoted
      exact escapes fun quoted => absurd quoted unquoted
    have differs : reread value ≠ value := fun same => escapes (reread_eq_self_iff.mp same)
    have spelled : (name ++ "=" ++ valueText value).toList =
        name.toList ++ '=' :: (valueText value).toList := by simp
    have feedless := (unbroken_valueText line).no_feed
    rw [spelled] at parsed
    -- with escapes the value comes back changed, unless a hash inside of it opens a comment
    cases start : commentStart ('=' :: name.toList.reverse) true true
        (trimRight (valueText value).toList) with
    | none =>
      rw [parseLine_uncommented exact feedless start, trimRight_valueText, parseValue_valueText]
        at parsed
      have value_eq := congrArg Entry.value (Option.some.inj parsed)
      simp only at value_eq
      split at value_eq
      · cases value_eq
      · exact differs (Option.some.inj value_eq)
    | some found =>
      obtain ⟨read, commented⟩ := parseLine_commented exact feedless start number
      rw [commented] at parsed
      have blank := congrArg Entry.comment (Option.some.inj parsed)
      rw [trimRight_valueText] at start
      simp [Option.filter, trim_comment_ne_nil quoted start] at blank
  · intro unescaped
    rw [parseLine_valueText exact line (reread_eq_self_iff.mpr unescaped), real]
    simp [nonempty]

/-- A title of two words is quoted and has nothing to escape. -/
theorem parseLine_spacedTitle :
    Name.Exact "TITLE" ∧ "My app" ≠ "" ∧ Unbroken "My app".toList ∧
      isPlaceholder "My app" = false ∧
      (parseLine ("TITLE" ++ "=" ++ valueText "My app").toList 7 =
          some { name := "TITLE", value := some "My app", comment := none, line := 7 } ↔
        (needsQuotes "My app".toList = true →
          '"' ∉ "My app".toList ∧ '\\' ∉ "My app".toList)) := by
  have exact : Name.Exact "TITLE" := by decide
  have real : isPlaceholder "My app" = false := by decide
  exact ⟨exact, by decide, by decide, real,
    parseLine_valueText_iff exact (by decide) (by decide) real 7⟩

/-- A value with quotes of its own is read back with the escapes that it was written with. -/
theorem saysHi_escaped :
    Name.Exact "A" ∧ "say \"hi\"" ≠ "" ∧ Unbroken "say \"hi\"".toList ∧
      isPlaceholder "say \"hi\"" = false ∧
      parseLine ("A" ++ "=" ++ valueText "say \"hi\"").toList =
        some { name := "A", value := some "say \\\"hi\\\"" } ∧
      parseLine ("A" ++ "=" ++ valueText "say \"hi\"").toList ≠
        some { name := "A", value := some "say \"hi\"" } := by
  have parsed : parseLine ("A" ++ "=" ++ valueText "say \"hi\"").toList =
      some { name := "A", value := some "say \\\"hi\\\"" } := by decide
  refine ⟨by decide, by decide, by decide, by decide, parsed, ?_⟩
  rw [parsed]
  decide

end EnvCensus.Report.EnvExample
