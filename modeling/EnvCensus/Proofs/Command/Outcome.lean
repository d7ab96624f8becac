import EnvCensus.Proofs.Census.Consistency
import EnvCensus.Proofs.Command.Look
import EnvCensus.Proofs.Options.Acceptance
import EnvCensus.Proofs.Report.Output

/-!
# When a scan succeeds

A scan whose survey succeeds tells what it has found, writes its reports and
lists them; each of these steps can end it, for a text that the display cannot
read and for one that has no bytes. A scan that keeps to the default output
succeeds when its report on the terminal can be printed and its report file can
be written. It then leaves the disk with this file and nothing else changed.
-/

namespace EnvCensus.Command

open Disk Report
open Text (Whole)

/-- The path of the example declaration file that is written by default. -/
def reportPath : String := pathIn defaultDirectory Format.env.fileName

/-- The bytes of the example declaration file of a result. -/
def reportBytes (here : Place) (c : Census) : List UInt8 :=
  Text.encode (EnvExample.text (some here) c).toList

/-- The scan looks at the current directory and writes an example declaration file to the default
directory. -/
structure Scan.ByDefault (c : Scan) (config : Config) : Prop where
  target : c.target = "."
  unnamed : c.config = none
  directory : directoryOf c config = defaultDirectory
  formats : Choice.firstList c.formats config.formats ["env"] = ["env"]

/-- The run ends with the status of success. -/
def Succeeds (r : Except Failure Printed) : Prop := ∃ p, r = .ok p ∧ p.status = 0

variable {s : Setting} {c : Scan} {found : Surveyed}

/-! ### What a survey finds -/

/-- A survey scans the directory at its place with the built-in providers, under options of an
accepted choice. -/
theorem scan_of_survey [Parsers] {target : String} {named : Option String} {choice : Choice}
    (surveyed : survey s target named choice = .ok found) :
    ∃ options, choice.options found.config = .ok options ∧
      Census.scan s.disk s.here s.clock Registry.standard (.directory (pathOf found.place))
        options = .ok found.census := by
  obtain ⟨place, -, surveyed⟩ := bind_eq_ok.mp surveyed
  obtain ⟨config, -, surveyed⟩ := bind_eq_ok.mp surveyed
  obtain ⟨options, accepted, surveyed⟩ := bind_eq_ok.mp surveyed
  obtain ⟨census, scanned, surveyed⟩ := bind_eq_ok.mp surveyed
  cases surveyed
  exact ⟨options, mapError_eq_ok.mp accepted, mapError_eq_ok.mp scanned⟩

/-- The framework of a survey exists, and so do the sources that its findings are counted under. -/
theorem known_of_survey [Parsers] {target : String} {named : Option String} {choice : Choice}
    (surveyed : survey s target named choice = .ok found) :
    (∀ f ∈ found.census.findings, f.Valid) ∧
      (∀ e ∈ found.census.tally.bySource, ∃ s : Source, e.1 = s.tag) ∧
      ∀ tag ∈ found.census.framework, ∃ f : Framework, f.tag = tag := by
  obtain ⟨options, accepted, scanned⟩ := scan_of_survey surveyed
  obtain ⟨-, valid, -, sources⟩ := Census.scan_ok Census.standard_checked scanned
  refine ⟨valid, sources, fun tag there => ?_⟩
  obtain ⟨plan, planned, scanned⟩ := bind_eq_ok.mp scanned
  rw [Census.ofFiles_framework scanned] at there
  obtain ⟨place, -, tag_eq, -⟩ := Census.plan_directory planned
  rw [tag_eq, Census.frameworkOf] at there
  rcases Option.or_eq_some_iff.mp there with named | ⟨-, shown⟩
  · obtain ⟨named, nonempty⟩ := Option.filter_eq_some_iff.mp named
    rw [Choice.eq_accepted accepted] at named
    by_contra unknown
    exact Choice.names_known accepted (.inl ⟨tag, named, by simpa using nonempty,
      fun f same => unknown ⟨f, same⟩⟩)
  · obtain ⟨f, -, same⟩ := Option.map_eq_some_iff.mp shown
    exact ⟨f, same⟩

/-! ### Where the report lies -/

theorem names_reportPlace (standing : s.Standing) :
    Names s.disk s.here reportPath (s.here ++ [defaultDirectory]) Format.env.fileName where
  names := by
    have parsed : (Path.parse reportPath).isAbsolute = false ∧
        (Path.parse reportPath).segments = [defaultDirectory, Format.env.fileName] := by decide
    rw [namesFrom, parsed.1, parsed.2]
    simp
  climbs := by
    intro n hn
    rw [List.append_assoc] at hn
    exact (proper_reportPlace standing.proper n hn).not_climbing
  top := by
    obtain ⟨es, folder⟩ := standing.folder
    exact isFolder_of_at? folder

theorem reportPlace_eq (here : Place) :
    reportPlace here = here ++ [defaultDirectory] ++ [Format.env.fileName] := by
  simp [reportPlace]

section Display

variable [Text.Halves] [Console]

/-! ### What is printed -/

omit [Console] in
theorem emit_eq_ok {text out : String} : emit text = .ok out ↔ Whole text.toList ∧ text = out := by
  unfold emit
  rw [← Text.isWhole_iff]
  split
  · rename_i whole
    simp [whole]
  · rename_i halved
    simp [halved]

/-- What a scan tells of what it has found can be read and has bytes: its data, or the report on
it. -/
def Tells (s : Setting) (c : Scan) (census : Census) : Prop :=
  if c.json = true then Whole (jsonText c.target census).toList
  else ∃ text, Terminal.censusText s.width census c.target true = .ok text ∧ Whole text.toList

theorem scanText_ok_iff {census : Census} :
    (∃ text, scanText s c census = .ok text) ↔ Tells s c census := by
  unfold scanText Tells
  cases c.json with
  | true => simp [emit_eq_ok]
  | false =>
    simp only [Bool.false_eq_true, if_false, bind_eq_ok, emit_eq_ok, Terminal.censusText]
    constructor
    · rintro ⟨text, above, shown, overview, ⟨whole, -⟩, below, shown', table, ⟨whole', -⟩, -⟩
      exact ⟨_, ⟨above, shown, below, shown', rfl⟩, by simp [whole, whole']⟩
    · rintro ⟨text, ⟨above, shown, below, shown', e⟩, whole⟩
      cases e
      rw [String.toList_append, Text.whole_append] at whole
      exact ⟨_, above, shown, above, ⟨whole.1, rfl⟩, below, shown', below, ⟨whole.2, rfl⟩, rfl⟩

/-- The line of a written file can be read and has bytes. -/
def Lists (width : Nat) (path : String) : Prop :=
  ∃ text, Terminal.message width (writtenLine path) = .ok text ∧ Whole text.toList

/-- The list of what has been written can be printed just when each of its lines can. -/
theorem writtenText_ok_iff [Text.LawfulHalves] [Console.Lawful] (width : Nat) {paths : List String} :
    (∃ text, writtenText width paths = .ok text) ↔ ∀ p ∈ paths, Lists width p := by
  obtain ⟨head, shown⟩ := (Terminal.message_ok_iff width).mpr
    (Console.shows_unmarked (s := "Generated files:") (by decide))
  have headWhole := Terminal.whole_message (Text.whole_of_all (by decide)) shown
  have line : ∀ p, (∃ text, (Terminal.message width (writtenLine p) >>= emit) = .ok text) ↔
      Lists width p := by
    intro p
    simp only [bind_eq_ok, emit_eq_ok, Lists]
    constructor
    · rintro ⟨_, text, shown, whole, rfl⟩
      exact ⟨text, shown, whole⟩
    · rintro ⟨text, shown, whole⟩
      exact ⟨text, text, shown, whole, rfl⟩
  have listed : writtenText width paths = (do
      return head ++ String.join (← paths.mapM fun p =>
        Terminal.message width (writtenLine p) >>= emit)) := by
    rw [writtenText, shown, ok_bind, emit_eq_ok.mpr ⟨headWhole, rfl⟩, ok_bind]
  rw [← forall₂_congr fun p _ => line p, ← mapM_ok_iff, listed]
  exact bind_ok_iff fun lines => ⟨_, rfl⟩

/-! ### What a run does -/

variable [Parsers]

theorem runScan_untold {f : Failure}
    (surveyed : survey s c.target c.config c.choice = .ok found)
    (text : scanText s c found.census = .error f) : runScan s c = (s.disk, .error f) := by
  unfold runScan
  simp only [surveyed, ok_bind, text]
  rfl

/-- The disk with the reports of a scan, and their paths. -/
def reports (s : Setting) (c : Scan) (found : Surveyed) : Disk × Except Failure (List String) :=
  Report.write s.disk s.here (some found.place) (directoryOf c found.config)
    (Choice.firstList c.formats found.config.formats ["env"]) found.census

/-- What is prepared before any report is written. -/
theorem prepared_ok (surveyed : survey s c.target c.config c.choice = .ok found) {text : String}
    (shown : scanText s c found.census = .ok text) :
    (do
      let found ← survey s c.target c.config c.choice
      return (found, ← shownText (scanText s c found.census)) : Except Stop (Surveyed × String)) =
        .ok (found, text) := by
  rw [surveyed, ok_bind, shown]
  rfl

/-- What a scan does once its reports are written. -/
theorem runScan_written (surveyed : survey s c.target c.config c.choice = .ok found)
    {text : String} (shown : scanText s c found.census = .ok text) {d : Disk} {paths : List String}
    (written : reports s c found = (d, .ok paths)) :
    runScan s c = (d, if c.json then .ok { output := text }
      else (writtenText s.width paths).map fun list => { output := text ++ list }) := by
  unfold reports at written
  unfold runScan
  simp only [prepared_ok surveyed shown, written, told, Except.mapError]
  cases c.json with
  | true => rfl
  | false => cases writtenText s.width paths <;> rfl

omit [Parsers] in
theorem refusal_status {width : Nat} {message : String} {p : Printed}
    (h : refusal width message = .ok p) : p.status = refusedStatus := by
  obtain ⟨errors, -, h⟩ := bind_eq_ok.mp h
  cases h
  rfl

/-- A scan one of whose reports cannot be written leaves what has been written before, and does not
succeed. -/
theorem runScan_unwritten (surveyed : survey s c.target c.config c.choice = .ok found)
    {text : String} (shown : scanText s c found.census = .ok text) {d : Disk} {e : Failure}
    (unwritten : reports s c found = (d, .error e)) :
    (runScan s c).1 = d ∧ ¬ Succeeds (runScan s c).2 := by
  unfold reports at unwritten
  unfold runScan
  simp only [prepared_ok surveyed shown, unwritten, told, Except.mapError]
  cases Stop.ofFailure e with
  | failed f =>
    refine ⟨rfl, ?_⟩
    rintro ⟨p, failed, -⟩
    cases failed
  | refused message =>
    refine ⟨rfl, ?_⟩
    rintro ⟨p, hp, status⟩
    obtain ⟨q, hq, rfl⟩ := map_eq_ok.mp hp
    have refused := refusal_status hq
    rw [show q.status = 0 from status] at refused
    cases refused

/-- A scan whose reports are written succeeds just when the list of them can be printed. -/
theorem runScan_written_succeeds [Text.LawfulHalves] [Console.Lawful]
    (surveyed : survey s c.target c.config c.choice = .ok found)
    {text : String} (shown : scanText s c found.census = .ok text) {d : Disk} {paths : List String}
    (written : reports s c found = (d, .ok paths)) :
    Succeeds (runScan s c).2 ↔ c.json = true ∨ ∀ p ∈ paths, Lists s.width p := by
  rw [runScan_written surveyed shown written, ← writtenText_ok_iff s.width]
  cases c.json with
  | true => simp [Succeeds]
  | false =>
    constructor
    · rintro ⟨p, hp, -⟩
      obtain ⟨list, hlist, -⟩ := map_eq_ok.mp hp
      exact Or.inr ⟨list, hlist⟩
    · rintro (json | ⟨list, hlist⟩)
      · cases json
      · exact ⟨_, map_eq_ok.mpr ⟨list, hlist, rfl⟩, rfl⟩

/-! ### The default output -/

/-- The example declaration file of a result has bytes. -/
def ReportWhole (here : Place) (c : Census) : Prop :=
  Whole (EnvExample.text (some here) c).toList

omit [Parsers] [Text.Halves] [Console] in
theorem ofTags_env : Format.ofTags ["env"] = .ok [.env] := rfl

omit [Parsers] [Console] in
theorem write_env {d d' : Disk} {here root : Place} {census : Census}
    (whole : ReportWhole root census)
    (written : d.write here reportPath (reportBytes root census) = (d', true)) :
    Report.write d here (some root) defaultDirectory ["env"] census = (d', .ok [reportPath]) := by
  have text : Format.text (some root) census .env = EnvExample.text (some root) census := by
    simp only [Format.text]
  have first := writeText_whole (Text.isWhole_iff.mpr whole) written
  rw [reportPath, ← text] at first
  rw [Report.write, ofTags_env]
  simp only [writeFormats_cons, first]
  rfl

omit [Parsers] [Console] in
theorem of_write_env {d d' : Disk} {here root : Place} {census : Census} {paths : List String}
    (written : Report.write d here (some root) defaultDirectory ["env"] census = (d', .ok paths)) :
    ReportWhole root census ∧ paths = [reportPath] ∧
      d.write here reportPath (reportBytes root census) = (d', true) := by
  have text : Format.text (some root) census .env = EnvExample.text (some root) census := by
    simp only [Format.text]
  rw [Report.write, ofTags_env] at written
  simp only [writeFormats_cons, text] at written
  rw [← reportPath] at written
  cases result : writeText d here reportPath (EnvExample.text (some root) census).toList with
  | mk d₁ ended =>
    cases ended with
    | error e =>
      simp only [result] at written
      cases written
    | ok done =>
      simp only [result] at written
      cases written
      obtain ⟨whole, first⟩ := of_writeText result
      exact ⟨Text.isWhole_iff.mp whole, rfl, first⟩

omit [Parsers] [Console] in
theorem Scan.ByDefault.reports_eq (h : c.ByDefault found.config) : reports s c found =
    Report.write s.disk s.here (some found.place) defaultDirectory ["env"] found.census := by
  rw [reports, h.directory, h.formats]

variable [Text.LawfulHalves] [Console.Lawful]

omit [Parsers] in
theorem lists_reportPath (width : Nat) : Lists width reportPath := by
  have spelled : writtenLine reportPath =
      "  " ++ Terminal.styled "green" "✓" ++ (" " ++ reportPath) := by
    rw [writtenLine, String.append_assoc]
  have closed : Console.Closed (writtenLine reportPath) :=
    spelled ▸ .styled (by decide) (by decide) (by decide) (by decide)
  obtain ⟨text, shown⟩ := (Terminal.message_ok_iff width).mpr (Console.shows_closed closed)
  exact ⟨text, shown, Terminal.whole_message (Text.whole_of_all (by decide)) shown⟩

/-- A scan succeeds just when what it has found can be told and its report has bytes and can be
written. -/
theorem runScan_succeeds (h : c.ByDefault found.config)
    (surveyed : survey s c.target c.config c.choice = .ok found) :
    Succeeds (runScan s c).2 ↔ Tells s c found.census ∧ ReportWhole found.place found.census ∧
      ∃ d, s.disk.write s.here reportPath (reportBytes found.place found.census) = (d, true) := by
  rw [← scanText_ok_iff]
  cases shown : scanText s c found.census with
  | error f =>
    rw [runScan_untold surveyed shown]
    constructor
    · rintro ⟨p, hp, -⟩
      cases hp
    · rintro ⟨⟨text, htext⟩, -⟩
      cases htext
  | ok text =>
    constructor
    · intro succeeds
      cases written : reports s c found with
      | mk d ended =>
        cases ended with
        | error e => exact absurd succeeds (runScan_unwritten surveyed shown written).2
        | ok paths =>
          obtain ⟨whole, -, first⟩ := of_write_env (h.reports_eq ▸ written)
          exact ⟨⟨text, rfl⟩, whole, d, first⟩
    · rintro ⟨-, whole, d, first⟩
      have written := h.reports_eq.trans (write_env whole first)
      refine (runScan_written_succeeds surveyed shown written).mpr (Or.inr fun p hp => ?_)
      rw [List.mem_singleton.mp hp]
      exact lists_reportPath s.width

/-! ### Where the report can be written -/

/-- The setting after a scan; only the disk has changed. -/
def Setting.after (s : Setting) (c : Scan) : Setting := { s with disk := (runScan s c).1 }

omit [Text.LawfulHalves] [Console.Lawful] in
/-- A scan that can be told leaves the report where it can be written. -/
theorem Setting.after_eq (standing : s.Standing) (writable : Writable s.disk (reportPlace s.here))
    (h : c.ByDefault found.config) (surveyed : survey s c.target c.config c.choice = .ok found)
    (place : found.place = s.here) (tells : Tells s c found.census)
    (whole : ReportWhole found.place found.census) :
    s.after c = s.reported (reportBytes s.here found.census) := by
  obtain ⟨text, shown⟩ := scanText_ok_iff.mpr tells
  rw [reportPlace_eq] at writable
  have written := write_env whole (writable.write_eq (names_reportPlace standing)
    (reportBytes found.place found.census))
  rw [Setting.after, runScan_written surveyed shown (h.reports_eq.trans written), Setting.reported,
    reportPlace_eq, place]

theorem runScan_succeeds_writable (standing : s.Standing)
    (writable : Writable s.disk (reportPlace s.here)) (h : c.ByDefault found.config)
    (surveyed : survey s c.target c.config c.choice = .ok found) :
    Succeeds (runScan s c).2 ↔ Tells s c found.census ∧ ReportWhole found.place found.census := by
  rw [reportPlace_eq] at writable
  rw [runScan_succeeds h surveyed, writable.write_eq (names_reportPlace standing)]
  exact ⟨fun ⟨tells, whole, _⟩ => ⟨tells, whole⟩, fun ⟨tells, whole⟩ => ⟨tells, whole, _, rfl⟩⟩

/-- Without links on the way, a scan that succeeds has written its report where it could be. -/
theorem writable_of_succeeds (standing : s.Standing)
    (noLinks : ∀ p t, p <+: reportPlace s.here → s.disk.at? p ≠ some (.link t))
    (h : c.ByDefault found.config) (surveyed : survey s c.target c.config c.choice = .ok found)
    (succeeds : Succeeds (runScan s c).2) : Writable s.disk (reportPlace s.here) := by
  obtain ⟨-, -, d, written⟩ := (runScan_succeeds h surveyed).mp succeeds
  rw [reportPlace_eq] at noLinks ⊢
  exact writable_of_write (names_reportPlace standing) noLinks written

end Display

end EnvCensus.Command
