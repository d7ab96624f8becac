import EnvCensus.Command.Run
import EnvCensus.Proofs.Report.EnvExample
import EnvCensus.Proofs.Report.Quotes

/-!
# Variables printed as declarations

The declarations that are printed for a list of variables and those in the
report on it are read as the same values just when the printed ones lose nothing
by standing without quotes, and the time of the report declares nothing.
-/

namespace EnvCensus.Command

open Dotenv Text
open Display (withoutSequences withoutSequences_append withoutSequences_nil
  withoutSequences_of_no_escape withoutSequences_sublist)
open Report.EnvExample

variable {c : Census} {f : Finding} {fs : List Finding} {n : String} {w : List Char}

/-! ### What is read for a name -/

/-- The values that entries give for a name, in order. -/
def valuesOf (n : String) (es : List Entry) : List (Option String) :=
  (es.filter (·.name == n)).map (·.value)

theorem valuesOf_append (n : String) (es es' : List Entry) :
    valuesOf n (es ++ es') = valuesOf n es ++ valuesOf n es' := by
  rw [valuesOf, List.filter_append, List.map_append]
  rfl

/-- Every entry gives a value for its own name. -/
theorem eq_nil_of_valuesOf {es : List Entry} (none : ∀ n, valuesOf n es = []) : es = [] := by
  cases es with
  | nil => rfl
  | cons e es =>
    have own := none e.name
    simp [valuesOf] at own

/-- The numbers of the lines decide no value. -/
theorem valuesOf_parse (n content : String) :
    valuesOf n (parse content) = valuesOf n (Dotenv.read content.toList) := by
  rw [← parse_read, valuesOf, valuesOf, List.filter_map, List.map_map]
  rfl

variable {g : Finding → List Entry}

/-- For each finding one entry is read, with the name of the finding. -/
def ReadsOne (g : Finding → List Entry) (fs : List Finding) : Prop :=
  ∀ f ∈ fs, ∃ e, g f = [e] ∧ e.name = f.name

theorem valuesOf_absent (one : ReadsOne g fs) (absent : n ∉ fs.map (·.name)) :
    valuesOf n (fs.flatMap g) = [] := by
  rw [valuesOf, List.map_eq_nil_iff, List.filter_eq_nil_iff]
  intro e he named
  obtain ⟨f, hf, mem⟩ := List.mem_flatMap.mp he
  obtain ⟨e', single, name⟩ := one f hf
  rw [single, List.mem_singleton] at mem
  apply absent
  rw [← eq_of_beq named, mem, name]
  exact List.mem_map_of_mem hf

/-- Where the names are different, the value for a name is the one of the finding. -/
theorem valuesOf_present (one : ReadsOne g fs) (different : (fs.map (·.name)).Nodup)
    (mem : f ∈ fs) : valuesOf f.name (fs.flatMap g) = (g f).map (·.value) := by
  obtain ⟨sooner, later, rfl⟩ := List.append_of_mem mem
  obtain ⟨e, single, name⟩ := one f mem
  have apart := different
  rw [List.map_append, List.map_cons, List.nodup_append, List.nodup_cons] at apart
  obtain ⟨-, ⟨behind, -⟩, before⟩ := apart
  have first : valuesOf f.name (sooner.flatMap g) = [] :=
    valuesOf_absent (fun x hx => one x (List.mem_append_left _ hx))
      fun named => before _ named _ List.mem_cons_self rfl
  have last : valuesOf f.name (later.flatMap g) = [] :=
    valuesOf_absent (fun x hx => one x (List.mem_append_right _ (List.mem_cons_of_mem _ hx))) behind
  have own : valuesOf f.name (g f) = (g f).map (·.value) := by
    rw [valuesOf, single, List.filter_cons_of_pos (by simp [name]), List.filter_nil]
  rw [List.flatMap_append, List.flatMap_cons, valuesOf_append, valuesOf_append, first, last, own,
    List.nil_append, List.append_nil]

/-- Two readings of findings with different names, perhaps in different orders, agree on every name
just when they agree on every finding and nothing else is read in front of them. -/
theorem valuesOf_agree_iff {h : Finding → List Entry} {fs' : List Finding} {front : List Entry}
    (different : (fs.map (·.name)).Nodup) (reordered : fs'.Perm fs) (one : ReadsOne g fs)
    (one' : ReadsOne h fs) :
    (∀ n, valuesOf n (fs.flatMap g) = valuesOf n (front ++ fs'.flatMap h)) ↔
      front = [] ∧ ∀ f ∈ fs, (g f).map (·.value) = (h f).map (·.value) := by
  have different' : (fs'.map (·.name)).Nodup := (reordered.map _).nodup_iff.mpr different
  have one' : ReadsOne h fs' := fun f hf => one' f (reordered.mem_iff.mp hf)
  have present : ∀ f ∈ fs, valuesOf f.name (fs.flatMap g) = (g f).map (·.value) ∧
      valuesOf f.name (fs'.flatMap h) = (h f).map (·.value) := fun f hf =>
    ⟨valuesOf_present one different hf,
      valuesOf_present one' different' (reordered.mem_iff.mpr hf)⟩
  have absent : ∀ n, n ∉ fs.map (·.name) → valuesOf n (fs.flatMap g) = [] ∧
      valuesOf n (fs'.flatMap h) = [] := fun n hn =>
    ⟨valuesOf_absent one hn, valuesOf_absent one' fun mem => hn ((reordered.map _).mem_iff.mp mem)⟩
  simp only [valuesOf_append]
  constructor
  · intro agree
    -- either side reads one value for each finding, so there is no room for one in front
    have none : front = [] := by
      apply eq_nil_of_valuesOf
      intro n
      have here := agree n
      by_cases named : n ∈ fs.map (·.name)
      · obtain ⟨f, hf, rfl⟩ := List.mem_map.mp named
        obtain ⟨a, printed, -⟩ := one f hf
        obtain ⟨b, written, -⟩ := one' f (reordered.mem_iff.mpr hf)
        rw [(present f hf).1, (present f hf).2, printed, written] at here
        have lengths := congrArg List.length here
        simp only [List.length_append, List.length_map, List.length_singleton] at lengths
        apply List.length_eq_zero_iff.mp
        omega
      · rw [(absent n named).1, (absent n named).2, List.append_nil] at here
        exact here.symm
    constructor
    · exact none
    · intro f hf
      have here := agree f.name
      rw [none, (present f hf).1, (present f hf).2] at here
      exact here
  · rintro ⟨rfl, same⟩ n
    by_cases named : n ∈ fs.map (·.name)
    · obtain ⟨f, hf, rfl⟩ := List.mem_map.mp named
      rw [(present f hf).1, (present f hf).2, same f hf]
      rfl
    · rw [(absent n named).1, (absent n named).2]
      rfl

/-! ### One finding -/

/-- Every text of the finding stands on one line. -/
structure OneLine (f : Finding) : Prop where
  name : Unbroken f.name.toList
  default : ∀ d ∈ f.defaultValue, Unbroken d.toList
  notes : ∀ note ∈ f.notes, Unbroken note.toList
  paths : ∀ r ∈ f.files, Unbroken r.path.toList

theorem OneLine.exact (line : OneLine f) (valid : f.Valid) : Name.Exact f.name := by
  rcases Name.isValid_iff_exact.mp valid.2 with exact | ⟨t, -, broken⟩
  · exact exact
  · have feed : '\n' ∈ f.name.toList := by
      rw [broken, String.toList_append]
      exact List.mem_append_right _ List.mem_cons_self
    exact absurd feed line.name.no_feed

theorem OneLine.defaultText (line : OneLine f) : Unbroken (f.defaultValue.getD "").toList := by
  cases h : f.defaultValue with
  | none => exact List.forall_mem_nil _
  | some d => exact line.default d h

/-- A binding on one line is read as one entry, with what is kept of the value. -/
theorem read_kept (exact : Name.Exact n) (line : Unbroken w) :
    ∃ e u, Dotenv.read (n.toList ++ '=' :: w) = [e] ∧ e.name = n ∧ e.value = parseValue u ∧
      Kept (trimRight w) u := by
  obtain ⟨u, comment, kept, parsed⟩ := parseLine_kept exact line.no_feed 0
  refine ⟨entryOf 0 n u comment, u, ?_, rfl, rfl, kept⟩
  have whole : Unbroken (n.toList ++ '=' :: w) := by
    rw [List.append_cons]
    exact unbroken_append.mpr ⟨unbroken_append.mpr
      ⟨fun c hc => isLineBreak_of_isTail (exact.isTail hc), by decide⟩, line⟩
  rw [read_unbroken whole (by simp), parsed]
  rfl

/-- What is read in the printed line of a finding. -/
def readPrinted (f : Finding) : List Entry :=
  Dotenv.read (f.name.toList ++ '=' :: withoutSequences (f.defaultValue.getD "").toList)

/-- What is read in the line of a report for a finding. -/
def readWritten (f : Finding) : List Entry :=
  Dotenv.read (f.name.toList ++ '=' :: (valueText (f.defaultValue.getD "")).toList)

/-- Both lines declare the finding, and they give the same value just when its default, if it has
one, is read alike with and without the quotes of the report. -/
theorem readPrinted_iff (line : OneLine f) (exact : Name.Exact f.name) :
    (∃ e, readPrinted f = [e] ∧ e.name = f.name) ∧ (∃ e, readWritten f = [e] ∧ e.name = f.name) ∧
      ((readPrinted f).map (·.value) = (readWritten f).map (·.value) ↔
        ∀ d ∈ f.defaultValue, ReadsAlike d) := by
  have shown : Unbroken (withoutSequences (f.defaultValue.getD "").toList) := fun c hc =>
    line.defaultText c ((withoutSequences_sublist _).subset hc)
  obtain ⟨e, u, printed, name, value, kept⟩ := read_kept exact shown
  obtain ⟨e', u', written, name', value', kept'⟩ :=
    read_kept exact (unbroken_valueText line.defaultText)
  rw [trimRight_valueText] at kept'
  refine ⟨⟨e, printed, name⟩, ⟨e', written, name'⟩, ?_⟩
  rw [readPrinted, readWritten, printed, written]
  have alike := values_alike_iff kept kept'
  rw [List.map_singleton, List.map_singleton, value, value', List.singleton_inj, alike]
  cases h : f.defaultValue with
  | none => simp [readsAlike_empty]
  | some d => simp

/-! ### The two renderings -/

theorem toList_declarationLine (exact : Name.Exact f.name) : (declarationLine f).toList =
    f.name.toList ++ '=' :: withoutSequences (f.defaultValue.getD "").toList ++ ['\n'] := by
  have spelled : (f.name ++ "=" ++ f.defaultValue.getD "" ++ "\n").toList =
      f.name.toList ++ '=' :: ((f.defaultValue.getD "").toList ++ '\n' :: []) := by simp
  have plain : '\x1b' ∉ f.name.toList := by
    intro escape
    have tail := exact.isTail escape
    exact absurd tail (by decide)
  rw [declarationLine, echoed, String.toList_ofList, spelled, withoutSequences_append (by decide),
    withoutSequences_append (by decide), withoutSequences_nil, withoutSequences_of_no_escape plain,
    List.append_assoc, List.cons_append]

/-- What is read in the printed lines. -/
theorem read_declarationLines (exact : ∀ f ∈ fs, Name.Exact f.name) :
    Dotenv.read (String.join (fs.map declarationLine)).toList = fs.flatMap readPrinted := by
  induction fs with
  | nil => exact read_nil
  | cons f fs ih =>
    obtain ⟨first, others⟩ := List.forall_mem_cons.mp exact
    rw [List.map_cons, String.join_cons, String.toList_append, toList_declarationLine first,
      List.append_assoc, List.singleton_append, read_append_feed, ih others, List.flatMap_cons]
    rfl

/-- What is read in a report on findings that stand on one line. -/
theorem read_report (root : Option Disk.Place) (lines : ∀ f ∈ c.findings, OneLine f) :
    Dotenv.read (text root c).toList =
      readFurther c.scannedAt.toList ++ (inReportOrder c).flatMap readWritten := by
  have each : ∀ f ∈ inReportOrder c,
      (entryLines root f).flatMap (fun l => Dotenv.read l.toList) = readWritten f := by
    intro f hf
    have line := lines f (mem_inReportOrder.mp hf)
    have notes : f.notes.flatMap (fun note => readFurther note.toList) = [] :=
      List.flatMap_eq_nil_iff.mpr fun note hnote => readFurther_unbroken (line.notes note hnote)
    have places : readFurther (usedIn root f.files).toList = [] :=
      readFurther_unbroken
        (unbroken_usedIn fun r hr => unbroken_location (line.paths r (List.mem_of_mem_take hr)))
    rw [read_entryLines, notes, places, readWritten]
    simp
  rw [read_text, List.flatMap_congr each]

/-- The variables of a census, printed as declarations, and the report on it are read as the same
values for every name just when the time of the report declares nothing and every default is read
alike with and without the quotes of the report. -/
theorem printed_agrees_iff (s : Setting) (root : Option Disk.Place)
    (different : (c.findings.map (·.name)).Nodup) (valid : ∀ f ∈ c.findings, f.Valid)
    (lines : ∀ f ∈ c.findings, OneLine f) :
    ∃ printed, printText s "env" c.findings = .ok printed ∧
      ((∀ n, valuesOf n (parse printed) = valuesOf n (parse (text root c))) ↔
        Quiet c.scannedAt ∧ ∀ f ∈ c.findings, ∀ d ∈ f.defaultValue, ReadsAlike d) := by
  refine ⟨_, rfl, ?_⟩
  have exact : ∀ f ∈ c.findings, Name.Exact f.name := fun f hf => (lines f hf).exact (valid f hf)
  have each := fun f hf => readPrinted_iff (lines f hf) (exact f hf)
  -- Both texts are read finding by finding, the report after the time of it and in its own order.
  simp only [valuesOf_parse, read_declarationLines exact, read_report root lines]
  rw [valuesOf_agree_iff different (inReportOrder_perm c) (fun f hf => (each f hf).1)
    (fun f hf => (each f hf).2.1), quiet_iff]
  exact and_congr_right fun _ => forall₂_congr fun f hf => (each f hf).2.2

/-- An empty directory, and a display of the usual width. -/
def emptyProject : Setting where
  disk := .folder []
  here := []
  clock := ⟨"now", 0⟩
  width := 80

theorem oneLine_serviceCensus : ∀ f ∈ serviceCensus.findings, OneLine f := by
  rw [serviceCensus]
  refine List.forall_mem_cons.mpr ⟨?_, List.forall_mem_singleton.mpr ?_⟩
  · exact ⟨by decide, by decide, by decide, by decide⟩
  · exact ⟨by decide, by decide, by decide, by decide⟩

/-- A title of two words is read alike with and without quotes. -/
theorem readsAlike_title : ReadsAlike "My app" := by
  refine ⟨withoutSequences_of_no_escape (by decide), fun _ => ⟨by decide, by decide, ?_, ?_⟩⟩
  · intro front after split
    have none : '#' ∉ "My app".toList := by decide
    exact absurd (split ▸ by simp) none
  · intro inner wrapped
    have first := (List.cons.inj wrapped).1
    exact absurd first (by decide)

/-- The variables of a service are printed as the report on them gives them. -/
theorem printed_agrees_service :
    (serviceCensus.findings.map (·.name)).Nodup ∧ (∀ f ∈ serviceCensus.findings, f.Valid) ∧
      (∀ f ∈ serviceCensus.findings, OneLine f) ∧
      ∃ printed, printText emptyProject "env" serviceCensus.findings = .ok printed ∧
        ∀ n, valuesOf n (parse printed) =
          valuesOf n (parse (text (some ["p"]) serviceCensus)) := by
  have different : (serviceCensus.findings.map (·.name)).Nodup := by decide
  have valid : ∀ f ∈ serviceCensus.findings, f.Valid := List.forall_mem_cons.mpr
    ⟨⟨by decide, by decide⟩, List.forall_mem_singleton.mpr ⟨by decide, by decide⟩⟩
  obtain ⟨printed, shown, agree⟩ :=
    printed_agrees_iff emptyProject (some ["p"]) different valid oneLine_serviceCensus
  have quiet : Quiet serviceCensus.scannedAt := quiet_iff.mpr (readFurther_unbroken (by decide))
  refine ⟨different, valid, oneLine_serviceCensus, printed, shown, agree.mpr ⟨quiet, ?_⟩⟩
  rw [serviceCensus]
  refine List.forall_mem_cons.mpr ⟨?_, List.forall_mem_singleton.mpr ?_⟩
  · intro d given
    cases given
    exact readsAlike_title
  · intro d given
    cases given
    exact ⟨withoutSequences_of_no_escape (by decide), fun quoted => absurd quoted (by decide)⟩

/-- The result of a scan that found one variable, with a hash in its default. -/
def hashedCensus : Census where
  findings := [
    { name := "A", source := .process, files := [⟨"/p/app.js", 1, 11, none, none⟩]
      required := false, defaultValue := some "a #b" }]
  tally := {}
  scannedAt := "now"

/-- What follows the hash is read as a comment where the default is printed, and as a part of the
value in the report, which puts it between quotes. -/
theorem hashed_default_lost :
    (hashedCensus.findings.map (·.name)).Nodup ∧ (∀ f ∈ hashedCensus.findings, f.Valid) ∧
      (∀ f ∈ hashedCensus.findings, OneLine f) ∧
      printText emptyProject "env" hashedCensus.findings = .ok "A=a #b\n" ∧
      valuesOf "A" (parse "A=a #b\n") = [some "a"] ∧
      valuesOf "A" (parse (text (some ["p"]) hashedCensus)) = [some "a #b"] ∧
      valuesOf "A" (parse "A=a #b\n") ≠
        valuesOf "A" (parse (text (some ["p"]) hashedCensus)) := by
  have line : ∀ f ∈ hashedCensus.findings, OneLine f :=
    List.forall_mem_singleton.mpr ⟨by decide, by decide, by decide, by decide⟩
  have shown : String.join (hashedCensus.findings.map declarationLine) = "A=a #b\n" := by
    decide +kernel
  have printed : valuesOf "A" (parse "A=a #b\n") = [some "a"] := by decide +kernel
  have written : valuesOf "A" (parse (text (some ["p"]) hashedCensus)) =
      [some "a #b"] := by
    decide +kernel
  have valid : ∀ f ∈ hashedCensus.findings, f.Valid :=
    List.forall_mem_singleton.mpr ⟨by decide, by decide⟩
  refine ⟨by decide, valid, line, congrArg Except.ok shown, printed, written, ?_⟩
  rw [printed, written]
  decide

end EnvCensus.Command
