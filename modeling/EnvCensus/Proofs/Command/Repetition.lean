import EnvCensus.Proofs.Command.OneScript
import EnvCensus.Proofs.Command.ReadBack
import EnvCensus.Proofs.Report.Halves
import EnvCensus.Proofs.Text.Utf8

/-!
# Running a scan again

A scan that succeeds is repeatable just when what the next run reads back from
the report changes nothing of what is merged. A project shows that it need not
be: a variable that a script can do without becomes a required one.
-/

namespace EnvCensus.Command

open Disk Report
open Census (OnlyDeclares declared shelfOf textShelf appPath Finds)
open Text (Whole)

variable {s : Setting} {bytes : List UInt8} {choice : Choice} {c : Scan} {found : Surveyed}

/-- The next run succeeds, reports the same findings and leaves the same files. -/
structure Repeats (s : Setting) (c : Scan) (found : Surveyed) : Prop where
  succeeds : Succeeds (runScan (s.after c) c).2
  findings : ∃ again, survey (s.after c) c.target c.config c.choice = .ok again ∧
    List.Forall₂ Finding.SameReport found.census.findings again.census.findings
  files : ((s.after c).after c).disk = (s.after c).disk

theorem SameReport.showsDefault {fs gs : List Finding}
    (same : List.Forall₂ Finding.SameReport fs gs) (shows : ∀ f ∈ fs, Terminal.ShowsDefault f) :
    ∀ g ∈ gs, Terminal.ShowsDefault g := by
  induction same with
  | nil => simp
  | cons first _ ih =>
    obtain ⟨own, others⟩ := List.forall_mem_cons.mp shows
    refine List.forall_mem_cons.mpr ⟨?_, ih others⟩
    rw [Terminal.ShowsDefault, ← first.defaultValue]
    exact own

/-- The same bytes are those of the same report. -/
theorem reportWhole_of_bytes {here : Place} {census census' : Census}
    (same : reportBytes here census' = reportBytes here census)
    (whole : ReportWhole here census) : ReportWhole here census' := by
  have decoded (c : Census) : Text.decode? (reportBytes here c) =
      some (EnvExample.text (some here) c).toList := Text.decode?_eq_some_iff.mpr rfl
  have decoded' := decoded census'
  rw [same, decoded, Option.some.injEq] at decoded'
  rw [ReportWhole, ← decoded']
  exact whole

theorem figures_of_survey {target : String} {named : Option String} {choice : Choice}
    (surveyed : Command.survey s target named choice = .ok found) :
    Census.FiguresWhole found.census.tally := by
  obtain ⟨options, -, scanned⟩ := scan_of_survey surveyed
  obtain ⟨plan, -, scanned⟩ := bind_eq_ok.mp scanned
  exact Census.figures_of_ofFiles scanned

/-- What is found again is told like what was found before it, when the reports on both have
bytes. -/
theorem SameReport.tells {s' : Setting} {again : Surveyed} {choice : Choice} {here : Place}
    (surveyed : Command.survey s "." none choice = .ok found)
    (resurveyed : Command.survey s' "." none choice = .ok again)
    (target : c.target = ".")
    (same : List.Forall₂ Finding.SameReport found.census.findings again.census.findings)
    (whole : ReportWhole here found.census) (whole' : ReportWhole here again.census)
    (tells : Tells s c found.census) : Tells s' c again.census := by
  obtain ⟨valid, sources, -⟩ := known_of_survey surveyed
  obtain ⟨valid', sources', known⟩ := known_of_survey resurveyed
  have dot : Whole ".".toList := Text.whole_of_all (by decide)
  obtain ⟨-, taken⟩ := EnvExample.whole_of_text whole
  obtain ⟨time, taken'⟩ := EnvExample.whole_of_text whole'
  unfold Tells at tells ⊢
  rw [target] at tells ⊢
  split at tells
  · rename_i json
    rw [if_pos json, Census.whole_jsonText_iff (figures_of_survey resurveyed)]
    obtain ⟨-, each, -⟩ := (Census.whole_jsonText_iff (figures_of_survey surveyed)).mp tells
    refine ⟨dot, fun g hg => ?_, time, fun tag htag => ?_⟩
    · obtain ⟨f, hf, reported⟩ := mem_of_forall₂ same hg
      have own := each f hf
      exact ⟨reported.name ▸ own.name, reported.defaultValue ▸ own.defaultValue, (taken' g hg).2,
        reported.files ▸ own.files⟩
    · obtain ⟨f, rfl⟩ := known tag htag
      cases f <;> exact Text.whole_of_all (by decide)
  · rename_i table
    obtain ⟨text, shown, -⟩ := tells
    have shows := (Terminal.censusText_ok_iff _ _ valid sources).mp ⟨text, shown⟩
    obtain ⟨text', shown'⟩ := (Terminal.censusText_ok_iff s'.width "." valid' sources').mpr
      (SameReport.showsDefault same shows)
    rw [if_neg table]
    exact ⟨text', shown', Terminal.whole_censusText valid' sources' known dot
      (fun g hg => (taken' g hg).1) shown'⟩

/-- A project whose links have nothing to do with the report of a scan: none stands on the way to
the report, and each stands for the same file before and after. -/
structure Setting.Project (s : Setting) (c : Scan) : Prop where
  tidy : Tidy s.disk
  folder : ∃ es, s.disk.at? s.here = some (.folder es)
  way : ∀ p t, p <+: reportPlace s.here → s.disk.at? p ≠ some (.link t)
  links : LinksStand s.disk (s.after c).disk s.here

theorem Setting.Project.standing (h : s.Project c) : s.Standing where
  folder := h.folder
  proper := by
    obtain ⟨es, folder⟩ := h.folder
    exact h.tidy.proper_of_at? folder

/-- What a scan that succeeds leaves behind. -/
theorem Setting.Project.reports (h : s.Project c) (plain : c.ByDefault found.config)
    (surveyed : Command.survey s c.target c.config c.choice = .ok found)
    (place : found.place = s.here) (succeeds : Succeeds (runScan s c).2) :
    s.after c = s.reported (reportBytes s.here found.census) ∧
      s.Reports (reportBytes s.here found.census) := by
  have writable := writable_of_succeeds h.standing h.way plain surveyed succeeds
  obtain ⟨tells, whole⟩ :=
    (runScan_succeeds_writable h.standing writable plain surveyed).mp succeeds
  have after := Setting.after_eq h.standing writable plain surveyed place tells whole
  exact ⟨after, h.standing, h.tidy, writable, after ▸ h.links⟩

/-- Writing the same report again changes nothing, and writing another one does. -/
theorem Setting.reported_reported (s : Setting) (bytes bytes' : List UInt8) :
    ((s.reported bytes).reported bytes').disk = (s.reported bytes).disk ↔ bytes' = bytes := by
  simp only [Setting.reported]
  constructor
  · intro e
    have there := congrArg (fun d => d.at? (reportPlace s.here)) e
    simp only [at?_put_self] at there
    exact Disk.file.inj (Option.some.inj there)
  · rintro rfl
    rw [put_put]

/-- What the next run does with what it finds. -/
theorem Setting.Reports.next {again : Surveyed} (h : s.Reports (reportBytes s.here found.census))
    (plain : c.ByDefault found.config) (surveyed : Command.survey s "." none c.choice = .ok found)
    (after : s.after c = s.reported (reportBytes s.here found.census))
    (resurveyed : Command.survey (s.after c) "." none c.choice = .ok again) :
    (Succeeds (runScan (s.after c) c).2 ↔
      Tells (s.after c) c again.census ∧ ReportWhole s.here again.census) ∧
    (Succeeds (runScan (s.after c) c).2 →
      (((s.after c).after c).disk = (s.after c).disk ↔
        reportBytes s.here again.census = reportBytes s.here found.census)) := by
  have writable := h.writable.again (reportBytes s.here found.census)
  rw [after] at resurveyed ⊢
  obtain ⟨-, -, place, -⟩ := (survey_ok h.reported).mp resurveyed
  have plain' : c.ByDefault again.config := (h.unchanged surveyed resurveyed).1 ▸ plain
  have asked := resurveyed
  rw [← plain.target, ← plain.unnamed] at asked
  have succeeds_iff := runScan_succeeds_writable h.reported writable plain' asked
  rw [place] at succeeds_iff
  refine ⟨succeeds_iff, fun succeeds => ?_⟩
  obtain ⟨tells, whole⟩ := succeeds_iff.mp succeeds
  rw [← place] at whole
  rw [Setting.after_eq h.reported writable plain' asked place tells whole]
  exact Setting.reported_reported s _ _

/-- The next run repeats the first one just when what it finds is reported in the same way and
makes the same report file. -/
theorem Setting.Reports.repeats (h : s.Reports (reportBytes s.here found.census))
    (plain : c.ByDefault found.config) (surveyed : Command.survey s "." none c.choice = .ok found)
    (after : s.after c = s.reported (reportBytes s.here found.census))
    (tells : Tells s c found.census) (whole : ReportWhole s.here found.census) :
    Repeats s c found ↔
      ∃ again, Command.survey (s.after c) "." none c.choice = .ok again ∧
        List.Forall₂ Finding.SameReport found.census.findings again.census.findings ∧
        reportBytes s.here again.census = reportBytes s.here found.census := by
  constructor
  · rintro ⟨succeeds, ⟨again, resurveyed, same⟩, files⟩
    rw [plain.target, plain.unnamed] at resurveyed
    obtain ⟨-, files_iff⟩ := h.next plain surveyed after resurveyed
    exact ⟨again, resurveyed, same, (files_iff succeeds).mp files⟩
  · rintro ⟨again, resurveyed, same, bytes⟩
    obtain ⟨succeeds_iff, files_iff⟩ := h.next plain surveyed after resurveyed
    have whole' := reportWhole_of_bytes bytes whole
    have succeeds : Succeeds (runScan (s.after c) c).2 := succeeds_iff.mpr
      ⟨SameReport.tells surveyed resurveyed plain.target same whole whole' tells, whole'⟩
    refine ⟨succeeds, ⟨again, ?_, same⟩, (files_iff succeeds).mpr bytes⟩
    rw [plain.target, plain.unnamed]
    exact resurveyed

/-- A scan that succeeds is repeatable just when what the next run reads back from the report
changes nothing of what is merged. If the report has not been looked at before, this is the case
only when nothing at all is read back. -/
theorem repeats_iff_readBack (project : s.Project c) (stays : c.choice.followSymlinks = false)
    (surveyed : Command.survey s c.target c.config c.choice = .ok found)
    (plain : c.ByDefault found.config) (succeeds : Succeeds (runScan s c).2) :
    ∃ before after,
      (∀ f ∈ before ++ after, ∀ r ∈ f.files, r.path ≠ pathOf (reportPlace s.here)) ∧
      Finding.mergeAll (before ++ readBack s c.choice ++ after) = .ok found.census.findings ∧
      (Repeats s c found ↔ ∃ again,
        Finding.mergeAll (before ++ readBack (s.after c) c.choice ++ after) = .ok again ∧
          List.Forall₂ Finding.SameReport found.census.findings again ∧
          reportBytes s.here { found.census with findings := again } =
            reportBytes s.here found.census) ∧
      (readBack s c.choice = [] → (Repeats s c found ↔ readBack (s.after c) c.choice = [])) := by
  have here := surveyed
  rw [plain.target, plain.unnamed] at here
  obtain ⟨-, -, place, -⟩ := (survey_ok project.standing).mp here
  obtain ⟨after, reports⟩ := project.reports plain surveyed place succeeds
  obtain ⟨tells, whole⟩ :=
    (runScan_succeeds_writable project.standing reports.writable plain surveyed).mp succeeds
  rw [place] at whole
  obtain ⟨earlier, later, apart, merged, surveys⟩ := reports.survey stays here
  have exact_iff : Repeats s c found ↔ ∃ again,
      Finding.mergeAll (earlier ++ readBack (s.after c) c.choice ++ later) = .ok again ∧
        List.Forall₂ Finding.SameReport found.census.findings again ∧
        reportBytes s.here { found.census with findings := again } =
          reportBytes s.here found.census := by
    rw [reports.repeats plain here after tells whole, after]
    have bytes : ∀ {again}, Command.survey (s.reported (reportBytes s.here found.census)) "." none
          c.choice = .ok again →
        reportBytes s.here { found.census with findings := again.census.findings } =
          reportBytes s.here again.census := fun resurveyed =>
      reportBytes_congr s.here rfl (reports.unchanged here resurveyed).2.symm
    constructor
    · rintro ⟨again, resurveyed, same, written⟩
      exact ⟨again.census.findings, (surveys _).mpr ⟨again, resurveyed, rfl⟩, same,
        (bytes resurveyed).trans written⟩
    · rintro ⟨findings, remerged, same, written⟩
      obtain ⟨again, resurveyed, rfl⟩ := (surveys findings).mp remerged
      exact ⟨again, resurveyed, same, (bytes resurveyed).symm.trans written⟩
  refine ⟨earlier, later, apart, merged, exact_iff, fun unread => ?_⟩
  rw [unread, List.append_nil] at merged
  constructor
  · intro repeated
    obtain ⟨again, remerged, same, -⟩ := exact_iff.mp repeated
    exact readBack_nil project.standing.proper apart merged remerged same
  · intro still
    refine exact_iff.mpr ⟨found.census.findings, ?_, ?_, rfl⟩
    · rw [still, List.append_nil]
      exact merged
    · exact List.forall₂_same.mpr fun f _ => Finding.SameReport.refl f

/-! ### A scan that is not repeated -/

/-- A script that reads a variable and can do without it. -/
def guardedScript : String := "const t = process.env.TITLE || other;\n"

/-- A project of nothing but this script. -/
def scriptProject : Setting where
  disk := .folder [("p", .folder [("app.js", .file (Text.encode guardedScript.toList))])]
  here := ["p"]
  clock := { time := "now", milliseconds := 0 }
  width := 80

/-- What is found in the script. -/
def optionalTitle : Finding where
  name := "TITLE"
  source := .process
  files := [⟨"/p/app.js", 1, 11, none, none⟩]
  required := false

theorem scriptProject_project : scriptProject.Project {} where
  tidy := scriptSetting_tidy guardedScript
  folder := ⟨_, rfl⟩
  way := fun p t _ => (scriptSetting_linkFree guardedScript).no_link p t
  links := (scriptSetting_linkFree guardedScript).linksStand _ _

theorem scriptProject_reports (bytes : List UInt8) : scriptProject.Reports bytes where
  standing := scriptProject_project.standing
  tidy := scriptSetting_tidy guardedScript
  writable := scriptSetting_writable guardedScript
  links := (scriptSetting_linkFree guardedScript).linksStand _ _

/-- The report of the first run. -/
def titleReport : String :=
  "# Environment variables\n# Generated by envaudit on now\n\n# ---- Optional ----\n\n" ++
    "# Used in: app.js:1\nTITLE=\n"

/-- The walk takes the script and, in the directory of the reports, the report. -/
theorem takes_report : ∃ q, Discovery.Query.make defaultOptions [] [] = .ok q ∧
    q.takesFile [] ["app.js"] (Text.encode guardedScript.toList) = true ∧
    q.entersFolder [] ["env-docs"] = true ∧
    q.takesFile [] ["env-docs", ".env.example"] (Text.encode titleReport.toList) = true := by
  have query : (Discovery.Query.make defaultOptions [] []).map (fun q =>
      (q.takesFile [] ["app.js"] (Text.encode guardedScript.toList),
        q.entersFolder [] ["env-docs"],
        q.takesFile [] ["env-docs", ".env.example"] (Text.encode titleReport.toList))) =
      .ok (true, true, true) := by decide +kernel
  obtain ⟨q, hq, taken⟩ := map_eq_ok.mp query
  simp only [Prod.mk.injEq] at taken
  exact ⟨q, hq, taken⟩

/-- The variable of the script is collected before any declarations. -/
theorem guardedScript_collected :
    Census.earlier (textShelf guardedScript) defaultOptions [appPath] [] = [optionalTitle] ∧
      Census.later (textShelf guardedScript) defaultOptions [appPath] [] = [] := by
  decide +kernel

theorem guardedScript_finds : Finds guardedScript defaultOptions [optionalTitle] where
  read := by decide +kernel
  merged := by
    rw [guardedScript_collected.1, guardedScript_collected.2]
    decide +kernel

/-- Beside a script that is where it was, only the declarations matter. -/
theorem collected_script {d : Disk} {back : List String}
    (there : d.bytes? ["p"] appPath = some (Text.encode guardedScript.toList))
    (only : ∀ p ∈ back, OnlyDeclares p) :
    Census.collected (shelfOf d ["p"] defaultOptions) Registry.standard (appPath :: back)
        defaultOptions =
      optionalTitle :: declared (shelfOf d ["p"] defaultOptions) defaultOptions back := by
  obtain ⟨earlier, later⟩ := guardedScript_collected
  have texts : ∀ p ∈ [appPath] ++ [],
      (shelfOf d ["p"] defaultOptions).text p = (textShelf guardedScript).text p := by
    intro p hp
    rw [List.append_nil, List.mem_singleton] at hp
    rw [hp]
    exact (Census.shelfOf_text there defaultOptions).trans guardedScript_finds.read
  have here : (shelfOf d ["p"] defaultOptions).here = (textShelf guardedScript).here := rfl
  have around : Census.collected (shelfOf d ["p"] defaultOptions) Registry.standard
      ([appPath] ++ back ++ []) defaultOptions = _ :=
    Census.collected_around only here texts
  rw [earlier, later, List.append_nil, List.append_nil] at around
  exact around

theorem scriptProject_surveyed : ∃ found, survey scriptProject "." none {} = .ok found ∧
    found.place = ["p"] ∧ found.config = {} ∧ found.census.findings = [optionalTitle] ∧
      found.census.scannedAt = "now" :=
  scriptSetting_surveyed guardedScript_finds

theorem scriptProject_succeeds : Succeeds (runScan scriptProject {}).2 := by
  obtain ⟨found, surveyed, place, config, findings, time⟩ := scriptProject_surveyed
  have plain : ({} : Scan).ByDefault found.config := by
    rw [config]
    exact byDefault
  obtain ⟨valid, sources, known⟩ := known_of_survey surveyed
  have only : ∀ f ∈ found.census.findings, f = optionalTitle := by simp [findings]
  have shows : ∀ f ∈ found.census.findings, Terminal.ShowsDefault f := fun f hf =>
    Terminal.showsDefault_of_unmarked (only f hf ▸ by decide)
  have bytes : ∀ f ∈ found.census.findings, Terminal.DefaultWhole f := fun f hf =>
    Text.whole_of_all (only f hf ▸ by decide)
  have written : ReportWhole ["p"] ⟨[optionalTitle], {}, "now", none⟩ :=
    Text.isWhole_iff.mp (by decide +kernel)
  obtain ⟨text, shown⟩ := (Terminal.censusText_ok_iff 80 "." valid sources).mpr shows
  have tells : Tells scriptProject {} found.census := ⟨text, shown,
    Terminal.whole_censusText valid sources known (Text.whole_of_all (by decide)) bytes shown⟩
  refine (runScan_succeeds_writable scriptProject_project.standing
    (scriptSetting_writable guardedScript) plain surveyed).mpr ⟨tells, ?_⟩
  rw [place]
  exact reportWhole_of_bytes (reportBytes_congr ["p"] findings time) written

/-! ### The run after it -/

/-- The project after the first run. -/
def reportedProject : Setting := scriptProject.reported (Text.encode titleReport.toList)

/-- What is found in the report. -/
def declaredTitle : Finding where
  name := "TITLE"
  source := .dotenv
  files := [⟨"/p/env-docs/.env.example", 7, 1, none, none⟩]

/-- What the second run finds. -/
def requiredTitle : Finding where
  name := "TITLE"
  source := .process
  files := [⟨"/p/app.js", 1, 11, none, none⟩, ⟨"/p/env-docs/.env.example", 7, 1, none, none⟩]

/-- The first run writes this report, and a file with it is read as it, in which the variable is
found again. -/
theorem titleReport_scanned :
    EnvExample.text (some ["p"]) ⟨[optionalTitle], {}, "now", none⟩ = titleReport ∧
      (scannedText? (Text.encode titleReport.toList) defaultOptions.maxFileSize).filter (· ≠ "") =
        some titleReport ∧
      Dotenv.scan "/p" titleReport "/p/env-docs/.env.example" defaultOptions =
        .ok [declaredTitle] ∧
      Finding.mergeAll [optionalTitle, declaredTitle] = .ok [requiredTitle] := by
  decide +kernel

theorem scriptProject_after : scriptProject.after {} = reportedProject := by
  obtain ⟨found, surveyed, place, config, findings, time⟩ := scriptProject_surveyed
  have plain : ({} : Scan).ByDefault found.config := by
    rw [config]
    exact byDefault
  obtain ⟨text, -⟩ := titleReport_scanned
  have same : reportBytes ["p"] found.census = reportBytes ["p"] ⟨[optionalTitle], {}, "now", none⟩ :=
    reportBytes_congr ["p"] findings time
  obtain ⟨after, -⟩ := scriptProject_project.reports plain surveyed place scriptProject_succeeds
  rw [after, reportedProject]
  show scriptProject.reported (reportBytes ["p"] found.census) = _
  rw [same, reportBytes, text]

theorem reportedProject_disk : reportedProject.disk = .folder [("p", .folder [
    ("app.js", .file (Text.encode guardedScript.toList)),
    ("env-docs", .folder [(".env.example", .file (Text.encode titleReport.toList))])])] := rfl

theorem walk_report {d : Disk} {q : Discovery.Query} {script report : List UInt8}
    (unlisted : d.fileFrom? linkLimit ["p", "env-docs"] [Gitignore.fileName] = none)
    (hscript : q.takesFile [] ["app.js"] script = true)
    (enters : q.entersFolder [] ["env-docs"] = true)
    (hreport : q.takesFile [] ["env-docs", ".env.example"] report = true) :
    Discovery.walkEntries d q linkLimit ["p"] [] [] [("app.js", .file script),
      ("env-docs", .folder [(".env.example", .file report)])] =
        .ok [["app.js"], ["env-docs", ".env.example"]] := by
  have inside : Discovery.walkEntries d q linkLimit ["p", "env-docs"] [] ["env-docs"]
      [(".env.example", .file report)] = .ok [["env-docs", ".env.example"]] := by
    refine Discovery.walkEntries_cons_ok.mpr ⟨[["env-docs", ".env.example"]], [], ?_, walkEntries_nil, rfl⟩
    rw [Discovery.walkEntry_file]
    exact congrArg _ (if_pos hreport)
  refine Discovery.walkEntries_cons_ok.mpr
    ⟨[["app.js"]], [["env-docs", ".env.example"]], ?_, ?_, rfl⟩
  · rw [Discovery.walkEntry_file]
    exact congrArg _ (if_pos hscript)
  · refine Discovery.walkEntries_cons_ok.mpr ⟨[["env-docs", ".env.example"]], [], ?_, walkEntries_nil, rfl⟩
    exact Discovery.walkEntry_folder_ok.mpr
      (Or.inr ⟨enters, [], Discovery.listsBelow_of_none unlisted, inside⟩)

theorem reportedProject_unlisted : ∀ place ∈ [["p"], ["p", "env-docs"]],
    reportedProject.disk.fileFrom? linkLimit place [Gitignore.fileName] = none := by
  intro place hplace
  rw [reportedProject_disk]
  rcases List.mem_pair.mp hplace with rfl | rfl
  · exact fileFrom?_missing 39 rfl (by decide) rfl
  · exact fileFrom?_missing 39 rfl (by decide) rfl

theorem reportedProject_files :
    Discovery.files reportedProject.disk ["p"] "/p" defaultOptions [] [] =
      .ok ["/p/app.js", "/p/env-docs/.env.example"] := by
  obtain ⟨q, hq, script, enters, report⟩ := takes_report
  have unlisted := reportedProject_unlisted
  have folder : reportedProject.disk.at? ["p"] = some (.folder [
      ("app.js", .file (Text.encode guardedScript.toList)),
      ("env-docs", .folder [(".env.example", .file (Text.encode titleReport.toList))])]) := by
    rw [reportedProject_disk]
    rfl
  have settled : reportedProject.disk.settle ["p"] (pathOf ["p"]) = some ["p"] :=
    settle_pathOf ["p"] folder (by decide)
  refine (Discovery.files_ok settled folder).mpr ⟨q, [], _, hq,
    Discovery.listsBelow_of_none (unlisted ["p"] (by simp)),
    walk_report (unlisted ["p", "env-docs"] (by simp)) script enters report, ?_⟩
  cbv

theorem reportedProject_look : look reportedProject {} =
    .ok { config := {}, tag := none, options := defaultOptions,
          files := ["/p/app.js", "/p/env-docs/.env.example"] } := by
  obtain ⟨files, hl, -⟩ := (scriptProject_reports (Text.encode titleReport.toList)).look rfl
    (scriptSetting_look guardedScript_finds.short)
  obtain ⟨-, -, -, -, -, hfiles⟩ := look_ok.mp hl
  have same := hfiles.symm.trans reportedProject_files
  rw [← Except.ok.inj same]
  exact hl

theorem reportedProject_declared :
    declared (shelfOf reportedProject.disk ["p"] defaultOptions) defaultOptions
      ["/p/env-docs/.env.example"] = [declaredTitle] := by
  have there : reportedProject.disk.bytes? ["p"] "/p/env-docs/.env.example" =
      some (Text.encode titleReport.toList) := by
    rw [reportedProject_disk]
    generalize Text.encode titleReport.toList = report
    cbv
  obtain ⟨-, content, scanned, -⟩ := titleReport_scanned
  rw [← Census.shelfOf_text there defaultOptions] at content
  have here : (shelfOf reportedProject.disk ["p"] defaultOptions).here = "/p" := rfl
  have admitted : Registry.admits defaultOptions Provider.dotenv.name = true := by decide
  rw [declared, admitted]
  simp only [if_true, List.flatMap_singleton, Provider.findingsIn, content, here, scanned]

theorem reportedProject_surveyed : ∃ again,
    survey reportedProject "." none {} = .ok again ∧ again.census.findings = [requiredTitle] := by
  have there : reportedProject.disk.bytes? ["p"] "/p/app.js" =
      some (Text.encode guardedScript.toList) := by
    rw [reportedProject_disk]
    generalize Text.encode guardedScript.toList = script
    generalize Text.encode titleReport.toList = report
    cbv
  have only : ∀ p ∈ ["/p/env-docs/.env.example"], OnlyDeclares p := by
    intro p hp
    have proper : ∀ n ∈ ["p"], Path.Proper n := by decide
    rw [List.mem_singleton.mp hp]
    exact onlyDeclares_reportPlace proper
  have collected := collected_script there only
  rw [reportedProject_declared] at collected
  obtain ⟨-, -, -, merged⟩ := titleReport_scanned
  obtain ⟨census, hcensus, findings⟩ := Census.ofFiles_of_merged reportedProject.clock none
    ((congrArg Finding.mergeAll collected).trans merged)
  have reported := (scriptProject_reports (Text.encode titleReport.toList)).reported
  exact ⟨⟨["p"], {}, census⟩,
    (survey_ok reported).mpr ⟨_, reportedProject_look, rfl, rfl, hcensus⟩, findings⟩

/-- The scan of the project succeeds, and it is repeated just when nothing is read back. -/
theorem scriptProject_repeats_iff : ∃ found, survey scriptProject "." none {} = .ok found ∧
    Succeeds (runScan scriptProject {}).2 ∧
    (Repeats scriptProject {} found ↔ readBack (scriptProject.after {}) {} = []) := by
  obtain ⟨found, surveyed, -, config, -⟩ := scriptProject_surveyed
  have plain : ({} : Scan).ByDefault found.config := by
    rw [config]
    exact byDefault
  have unread : readBack scriptProject {} = [] :=
    readBack_missing scriptProject_project.standing (scriptSetting_tidy guardedScript) rfl rfl
  obtain ⟨before, after, -, -, -, repeats_iff⟩ := repeats_iff_readBack scriptProject_project rfl
    surveyed plain scriptProject_succeeds
  exact ⟨found, surveyed, scriptProject_succeeds, repeats_iff unread⟩

/-- A scan that succeeds need not be repeatable: a variable that the script can do without is
required by the next run, which reads it back from the report of the first one. -/
theorem scriptProject_not_repeated : ∃ found again,
    survey scriptProject "." none {} = .ok found ∧ Succeeds (runScan scriptProject {}).2 ∧
    survey (scriptProject.after {}) "." none {} = .ok again ∧
    found.census.findings = [optionalTitle] ∧ again.census.findings = [requiredTitle] ∧
    ¬ Repeats scriptProject {} found := by
  obtain ⟨found, surveyed, -, -, findings, -⟩ := scriptProject_surveyed
  obtain ⟨again, resurveyed, findings'⟩ := reportedProject_surveyed
  rw [← scriptProject_after] at resurveyed
  refine ⟨found, again, surveyed, scriptProject_succeeds, resurveyed, findings, findings', ?_⟩
  rintro ⟨-, ⟨again', resurveyed', same⟩, -⟩
  cases resurveyed.symm.trans resurveyed'
  rw [findings, findings'] at same
  cases same with
  | cons first _ => exact absurd first.required (by decide)

end EnvCensus.Command
