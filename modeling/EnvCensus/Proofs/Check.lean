import EnvCensus.Check
import EnvCensus.Proofs.Disk.Route
import EnvCensus.Proofs.Dotenv.Reading
import EnvCensus.Proofs.Text.Utf8
import Mathlib.Data.Bool.AllAny

/-!
# Checks of a declaration file

A required variable is missing just when no finding in the file says that it need
not be given. What a file goes on to declare behind a line feed can only define
more variables, and a line for each of the missing ones defines them all.
-/

namespace EnvCensus.Check

open Dotenv Text

variable {d : Disk} {here : Disk.Place} {path n : String} {bytes more : List UInt8}
  {findings : List Finding}

/-! ### Entries -/

theorem mem_missing {es : List Entry} : n ∈ missing findings es ↔
    n ∈ required findings ∧ ∀ e ∈ es, e.hasValue = true → e.name ≠ n := by
  rw [missing, List.mem_filter]
  simp

/-- The numbers of the lines decide nothing. -/
theorem missing_parse (findings : List Finding) (content : String) :
    missing findings (parse content) = missing findings (read content.toList) := by
  simp only [missing, ← parse_read, List.any_map]
  rfl

/-- Further entries can only define more. -/
theorem missing_append_sublist (findings : List Finding) (es later : List Entry) :
    (missing findings (es ++ later)).Sublist (missing findings es) := by
  apply List.monotone_filter_right
  intro n missing
  rw [List.any_append, Bool.not_or, Bool.and_eq_true] at missing
  exact missing.1

/-- Entries that give each of the missing variables a value leave none missing. -/
theorem missing_append_eq_nil {es later : List Entry}
    (given : ∀ n ∈ missing findings es, ∃ e ∈ later, e.hasValue = true ∧ e.name = n) :
    missing findings (es ++ later) = [] := by
  rw [List.eq_nil_iff_forall_not_mem]
  intro n still
  have before : n ∈ missing findings es := (missing_append_sublist findings es later).subset still
  obtain ⟨e, he, value, name⟩ := given n before
  exact (mem_missing.mp still).2 e (List.mem_append_right es he) value name

/-- A variable is missing when every finding that records an entry of its name is required. -/
theorem missing_of_records {es : List Entry} {found : List Finding}
    (h : List.Forall₂ Records es found) (findings : List Finding) :
    missing findings es =
      (required findings).filter fun n => ∀ f ∈ found, f.name = n → f.required = true := by
  apply List.filter_congr
  intro n _
  induction h with
  | nil => rfl
  | @cons e f es found first others ih =>
    obtain ⟨name, required⟩ := first
    rw [List.any_cons, Bool.not_or, ih]
    simp only [List.forall_mem_cons, name, required, Bool.decide_and]
    congr 1
    by_cases same : e.name = n
    · cases e.hasValue <;> simp [same]
    · simp [same]

/-! ### Files -/

/-- The path leads to a file of these bytes, which is not too large and has no zero byte. -/
structure Legible (d : Disk) (here : Disk.Place) (path : String) (bytes : List UInt8) : Prop where
  there : d.bytes? here path = some bytes
  small : (bytes.length : Int) ≤ defaultMaxFileSize
  text : 0 ∉ bytes

/-- The text of a file. -/
def textOf (bytes : List UInt8) : String := String.ofList (decodeLossy bytes)

theorem Legible.entriesOf_eq (h : Legible d here path bytes) :
    entriesOf d here path defaultMaxFileSize = parse (textOf bytes) := by
  have fits : ¬ (bytes.length : Int) > defaultMaxFileSize := Int.not_lt.mpr h.small
  have clean : (bytes.take Disk.sniffedLength).contains 0 = false := by
    have absent : 0 ∉ bytes.take Disk.sniffedLength := fun zero => h.text (List.mem_of_mem_take zero)
    simpa using absent
  have legible : d.readText? here path defaultMaxFileSize = some (textOf bytes) := by
    rw [Disk.readText?, h.there, Option.bind_some, Disk.scannedText?, if_neg fits, clean]
    rfl
  rw [entriesOf, legible]
  rfl

theorem Legible.missingIn_eq (h : Legible d here path bytes) (findings : List Finding) :
    missingIn d here path findings = missing findings (read (decodeLossy bytes)) := by
  rw [missingIn, h.entriesOf_eq, missing_parse, textOf, String.toList_ofList]

/-- A line of the text with an exact name and a word defines the name. -/
theorem exists_mem_read {cs : List Char} {value : String} (exact : Name.Exact n)
    (word : Word value) (line : (n ++ "=" ++ value).toList ∈ lines cs) :
    ∃ e ∈ read cs, e.hasValue = true ∧ e.name = n := by
  refine ⟨_, List.mem_filterMap.mpr ⟨_, line, parseLine_word exact word 0⟩, ?_, ?_⟩
  · rfl
  · rfl

/-- The missing variables are the required ones that no finding in the file has without being
required, in their order. Where the file goes on behind a line feed, no further variable is missing,
and none at all once each missing one has a line of its own with a word for its value. -/
theorem missingIn_exact (named : ∀ f ∈ findings, Name.Exact f.name)
    (legible : Legible d here path bytes) :
    (∀ (root file : String) (options : Options), ∃ found,
      Dotenv.scan root (textOf bytes) file options = .ok found ∧
      missingIn d here path findings =
        (required findings).filter fun n => ∀ f ∈ found, f.name = n → f.required = true) ∧
    ∀ (d' : Disk) (here' : Disk.Place) (path' : String) (more : List UInt8),
      Legible d' here' path' (bytes ++ 0x0A :: more) →
      (missingIn d' here' path' findings).Sublist (missingIn d here path findings) ∧
      ((∀ n ∈ missingIn d here path findings, ∃ value, Word value ∧
          (n ++ "=" ++ value).toList ∈ lines (decodeLossy more)) →
        missingIn d' here' path' findings = []) := by
  constructor
  · intro root file options
    obtain ⟨found, scanned⟩ := Dotenv.scan_total root (textOf bytes) file options
    refine ⟨found, scanned, ?_⟩
    rw [missingIn, legible.entriesOf_eq]
    exact missing_of_records (scan_records scanned) findings
  · intro d' here' path' more longer
    rw [legible.missingIn_eq, longer.missingIn_eq, decodeLossy_append_feed, read_append_feed]
    refine ⟨missing_append_sublist findings _ _, fun defined => missing_append_eq_nil ?_⟩
    intro n missing
    obtain ⟨value, word, line⟩ := defined n missing
    obtain ⟨f, hf, rfl⟩ := List.mem_map.mp (mem_missing.mp missing).1
    exact exists_mem_read (named f (List.mem_of_mem_filter hf)) word line

/-- Two variables that have to be given. -/
def neededFindings : List Finding :=
  [{ name := "DATABASE_URL", source := .process, files := [⟨"/app.js", 1, 12, none, none⟩] },
   { name := "PORT", source := .process, files := [⟨"/app.js", 2, 14, none, none⟩] }]

/-- A file that gives the port alone; a quote stays open on its last line, which ends in a carriage
return. -/
def unfilled : List UInt8 := encode "DATABASE_URL=\nPORT=8080 # it's\r".toList

/-- What fills in the address and leaves the port empty. -/
def filling : List UInt8 := encode "PORT=\nDATABASE_URL=postgres://db/app".toList

/-- A disk with one declaration file. -/
def oneFile (bytes : List UInt8) : Disk := .folder [("prod.env", .file bytes)]

/-- The path of the declaration file. -/
def oneFilePath : String := Disk.pathOf ["prod.env"]

theorem legible_oneFile (small : (bytes.length : Int) ≤ defaultMaxFileSize) (text : 0 ∉ bytes) :
    Legible (oneFile bytes) [] oneFilePath bytes :=
  ⟨Disk.bytes?_pathOf rfl (by decide) [], small, text⟩

/-- With the address filled in, nothing is missing. -/
theorem missingIn_filled :
    (∀ f ∈ neededFindings, Name.Exact f.name) ∧
    Legible (oneFile unfilled) [] oneFilePath unfilled ∧
    Legible (oneFile (unfilled ++ 0x0A :: filling)) [] oneFilePath (unfilled ++ 0x0A :: filling) ∧
    missingIn (oneFile unfilled) [] oneFilePath neededFindings = ["DATABASE_URL"] ∧
    missingIn (oneFile (unfilled ++ 0x0A :: filling)) [] oneFilePath neededFindings = [] := by
  have named : ∀ f ∈ neededFindings, Name.Exact f.name := by decide
  have legible : Legible (oneFile unfilled) [] oneFilePath unfilled :=
    legible_oneFile (by decide +kernel) (by decide +kernel)
  have longer : Legible (oneFile (unfilled ++ 0x0A :: filling)) [] oneFilePath
      (unfilled ++ 0x0A :: filling) := legible_oneFile (by decide +kernel) (by decide +kernel)
  have before : missingIn (oneFile unfilled) [] oneFilePath neededFindings = ["DATABASE_URL"] := by
    rw [legible.missingIn_eq]
    decide +kernel
  obtain ⟨-, extended⟩ := missingIn_exact named legible
  refine ⟨named, legible, longer, before, (extended _ _ _ _ longer).2 fun n missing => ?_⟩
  rw [before, List.mem_singleton] at missing
  subst missing
  exact ⟨"postgres://db/app", ⟨by decide, by decide, List.all_iff_forall_prop.mp (by decide)⟩,
    by decide +kernel⟩

end EnvCensus.Check
