import EnvCensus.Proofs.Command.OneScript

/-!
# When defaults stop a scan

A scan prints what it has found before it writes its reports, and the defaults
that it shows are read as marked-up text. A default that the display cannot
read, or one that has no bytes, stops the scan before anything is written.
Otherwise the scan goes on to its reports.
-/

namespace EnvCensus.Command

open Disk Report
open Text (Whole)
open Terminal (ShowsDefault DefaultWhole shortened)

variable {s : Setting} {c : Scan} {found : Surveyed}

section Display

variable [Parsers] [Text.Halves] [Text.LawfulHalves] [Console] [Console.Lawful]

/-- The report on a survey can be shown just when the defaults of its findings can. -/
theorem censusText_survey (width : Nat) (title : String) {target : String}
    {named : Option String} {choice : Choice} (surveyed : survey s target named choice = .ok found) :
    (∃ text, Terminal.censusText width found.census title true = .ok text) ↔
      ∀ f ∈ found.census.findings, ShowsDefault f := by
  obtain ⟨valid, sources, -⟩ := known_of_survey surveyed
  exact Terminal.censusText_ok_iff _ _ valid sources

/-- What stops the telling is a text without bytes, or a default that cannot be read. -/
theorem scanText_ends (surveyed : survey s c.target c.config c.choice = .ok found) :
    Ends (fun e => e = .encoding ∨ ∃ f ∈ found.census.findings,
      Console.read (shortened (f.defaultValue.getD "")) = .error e) (fun _ => True)
      (scanText s c found.census) := by
  obtain ⟨valid, sources, -⟩ := known_of_survey surveyed
  obtain ⟨overview, shown⟩ := Terminal.overviewText_total s.width c.target sources
  have emitted (text : String) : Ends (fun e => e = .encoding ∨ ∃ f ∈ found.census.findings,
      Console.read (shortened (f.defaultValue.getD "")) = .error e) (fun _ => True) (emit text) := by
    unfold emit
    split
    · exact .ok trivial
    · exact .error (.inl rfl)
  have below := (Terminal.variablesText_ends s.width valid).imp
    (fun e faulty => Or.inr (a := e = .encoding) faulty) fun _ _ => trivial
  unfold scanText
  split
  · exact emitted _
  · rw [shown, ok_bind]
    exact (emitted overview).bind fun above _ => below.bind fun table _ =>
      (emitted table).bind fun _ _ => .ok trivial

/-- The report on a scan can be shown just when the display reads each of the defaults, shortened to
what is shown of it. It reads a default without brackets, and none whose first bracket begins a
closing tag. The text of the report has bytes when the target and the defaults have. A scan whose
report cannot be shown, or whose text has no bytes, leaves the disk as it was and fails with the
reading of a default or for lack of bytes. One whose report can be printed, or that prints its
result as data, goes on to the files that it writes; when they are written it succeeds just when
the line of each of them can be printed. -/
theorem runScan_shows_defaults (surveyed : survey s c.target c.config c.choice = .ok found) :
    ((∃ text, Terminal.censusText s.width found.census c.target true = .ok text) ↔
      ∀ f ∈ found.census.findings, ShowsDefault f) ∧
    (∀ f ∈ found.census.findings, '[' ∉ (f.defaultValue.getD "").toList → ShowsDefault f) ∧
    (∀ f ∈ found.census.findings, ∀ front name back, Console.Plain front →
      ('[' ∉ name.toList ∧ ']' ∉ name.toList) →
      shortened (f.defaultValue.getD "") = front ++ "[/" ++ name ++ "]" ++ back →
      ¬ ShowsDefault f) ∧
    (∀ text, Terminal.censusText s.width found.census c.target true = .ok text →
      Whole c.target.toList → (∀ f ∈ found.census.findings, DefaultWhole f) → Whole text.toList) ∧
    (¬ Tells s c found.census → ∃ e, runScan s c = (s.disk, .error e) ∧
      (e = .encoding ∨ ∃ f ∈ found.census.findings,
        Console.read (shortened (f.defaultValue.getD "")) = .error e)) ∧
    (Tells s c found.census → ∀ d ended, reports s c found = (d, ended) →
      (runScan s c).1 = d ∧
      (∀ e, ended = .error e → ¬ Succeeds (runScan s c).2) ∧
      ∀ paths, ended = .ok paths →
        (Succeeds (runScan s c).2 ↔ c.json = true ∨ ∀ p ∈ paths, Lists s.width p)) := by
  obtain ⟨valid, sources, known⟩ := known_of_survey surveyed
  refine ⟨censusText_survey s.width c.target surveyed, fun f _ => Terminal.showsDefault_of_unmarked,
    fun f _ front name back => Terminal.not_showsDefault_of_closing, fun text shown named whole =>
      Terminal.whole_censusText valid sources known named whole shown, fun untold => ?_,
    fun tells d ended written => ?_⟩
  · cases shown : scanText s c found.census with
    | ok text => exact absurd (scanText_ok_iff.mp ⟨text, shown⟩) untold
    | error e =>
      exact ⟨e, runScan_untold surveyed shown, (scanText_ends surveyed).failure shown⟩
  · obtain ⟨text, shown⟩ := scanText_ok_iff.mpr tells
    cases ended with
    | error e =>
      obtain ⟨disk, fails⟩ := runScan_unwritten surveyed shown written
      exact ⟨disk, fun _ _ => fails, nofun⟩
    | ok paths =>
      refine ⟨by rw [runScan_written surveyed shown written], nofun, fun _ e => ?_⟩
      cases e
      exact runScan_written_succeeds surveyed shown written

end Display

/-! ### Two defaults with tags -/

/-- A script whose default closes the style that it opens. -/
def boldScript : String := "const t = process.env.TITLE || \"[b]My app[/b]\";\n"

/-- A script whose default closes a style that is not open. -/
def closingScript : String := "const t = process.env.TITLE || \"[/x]\";\n"

/-- What is found in a script of this form. -/
def titleFinding (default : String) : Finding where
  name := "TITLE"
  source := .process
  files := [⟨Census.appPath, 1, 11, none, none⟩]
  required := false
  defaultValue := some default

theorem finds_boldScript :
    Census.Finds boldScript defaultOptions [titleFinding "[b]My app[/b]"] :=
  ⟨by decide +kernel, by decide +kernel⟩

theorem finds_closingScript : Census.Finds closingScript defaultOptions [titleFinding "[/x]"] :=
  ⟨by decide +kernel, by decide +kernel⟩

theorem showsDefault_boldTitle : ShowsDefault (titleFinding "[b]My app[/b]") := by
  have reads : (Console.read "[b]My app[/b]").toOption.isSome = true := by decide +kernel
  show ∃ cs, Console.read "[b]My app[/b]" = .ok cs
  cases shows : Console.read "[b]My app[/b]" with
  | ok cs => exact ⟨cs, rfl⟩
  | error e =>
    rw [shows] at reads
    cases reads

theorem not_showsDefault_closingTitle : ¬ ShowsDefault (titleFinding "[/x]") := by
  have tagged : shortened ((titleFinding "[/x]").defaultValue.getD "") =
      "" ++ "[/" ++ "x" ++ "]" ++ "" := by decide
  exact Terminal.not_showsDefault_of_closing (by decide) (by decide) tagged

/-- The report on the scan of the first script shows its default, and its text has bytes. -/
theorem runScan_boldScript :
    ∃ found, survey (scriptSetting boldScript) "." none {} = .ok found ∧
      ∃ text, Terminal.censusText 80 found.census "." true = .ok text ∧ Whole text.toList := by
  obtain ⟨found, surveyed, -, -, findings, -⟩ := scriptSetting_surveyed finds_boldScript
  obtain ⟨shown_iff, -, -, whole, -⟩ :=
    runScan_shows_defaults (s := scriptSetting boldScript) (c := {}) surveyed
  have shows : ∀ f ∈ found.census.findings, ShowsDefault f := by
    rw [findings]
    exact List.forall_mem_singleton.mpr showsDefault_boldTitle
  have bytes : ∀ f ∈ found.census.findings, DefaultWhole f := by
    rw [findings]
    exact List.forall_mem_singleton.mpr (Text.whole_of_all (by decide))
  obtain ⟨text, shown⟩ := shown_iff.mpr shows
  exact ⟨found, surveyed, text, shown, whole text shown (Text.whole_of_all (by decide)) bytes⟩

/-- The survey of the second script succeeds and its report could be written, but its default stops
the scan, and nothing is written. -/
theorem runScan_closingScript :
    ∃ found, survey (scriptSetting closingScript) "." none {} = .ok found ∧
      Writable (scriptSetting closingScript).disk (reportPlace (scriptSetting closingScript).here) ∧
      (¬ ∃ text, Terminal.censusText 80 found.census "." true = .ok text) ∧
      ∃ e, runScan (scriptSetting closingScript) {} =
        ((scriptSetting closingScript).disk, .error e) := by
  obtain ⟨found, surveyed, -, -, findings, -⟩ := scriptSetting_surveyed finds_closingScript
  have hidden : ¬ ∃ text, Terminal.censusText 80 found.census "." true = .ok text := by
    intro shown
    have shows := (censusText_survey 80 "." surveyed).mp shown
    rw [findings] at shows
    exact not_showsDefault_closingTitle (shows _ List.mem_cons_self)
  refine ⟨found, surveyed, scriptSetting_writable closingScript, hidden, ?_⟩
  cases shown : scanText (scriptSetting closingScript) {} found.census with
  | ok text =>
    obtain ⟨text, report, -⟩ := scanText_ok_iff.mp ⟨text, shown⟩
    exact absurd ⟨text, report⟩ hidden
  | error e => exact ⟨e, runScan_untold (c := {}) surveyed shown⟩

end EnvCensus.Command
