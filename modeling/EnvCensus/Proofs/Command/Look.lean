import EnvCensus.Command.Run
import EnvCensus.Proofs.Census
import EnvCensus.Proofs.Config.Failures
import EnvCensus.Proofs.Discovery.Frame
import EnvCensus.Proofs.Framework
import EnvCensus.Proofs.Options.Precedence

/-!
# What a survey of the current directory looks at

A survey first settles what it looks at, the configuration, the framework, the
options and the files, and then scans the files. Writing a file below the
project changes nothing of this but whether the written file is looked at.
-/

namespace EnvCensus.Command

open Disk
open Discovery (SameBut)

/-- What a survey of a project looks at. -/
structure Look where
  config : Config
  tag : Option String
  options : Options
  files : List String

/-- What a survey of the current directory looks at. -/
def look (s : Setting) (choice : Choice) : Except Stop Look := do
  let root := pathOf s.here
  let config ← told (Config.load s.disk s.here root none)
  let asked ← (choice.options config).mapError fun r => Stop.refused r.message
  let tag := Census.frameworkOf s.disk s.here root asked
  let framework := tag.bind Framework.ofTag?
  let options := Census.withFramework asked framework
  let files ← told (Discovery.files s.disk s.here root options
    ((framework.map Framework.includePatterns).getD [])
    ((framework.map Framework.excludePatterns).getD []))
  return { config, tag, options, files }

/-- The result of scanning the files that are looked at. -/
def Look.census (l : Look) (s : Setting) : Except Failure Census :=
  Census.ofFiles s.disk s.here s.clock Registry.standard l.tag l.options l.files

/-- The current directory stands on the disk, with names that can stand in a path. -/
structure Setting.Standing (s : Setting) : Prop where
  folder : ∃ es, s.disk.at? s.here = some (.folder es)
  proper : ∀ n ∈ s.here, Path.Proper n

theorem projectPlace_here {s : Setting} (h : s.Standing) : projectPlace s "." = .ok s.here := by
  obtain ⟨es, folder⟩ := h.folder
  have settled : s.disk.settle s.here "." = some s.here := by
    have names : namesFrom s.here "." = s.here := List.append_nil _
    rw [settle, names]
    exact settleFrom_to linkLimit folder rfl fun n hn => (h.proper n hn).not_climbing
  rw [projectPlace, settled]
  simp only [folder]

/-- A survey of the current directory scans what it looks at. -/
theorem survey_here {s : Setting} (h : s.Standing) (choice : Choice) :
    survey s "." none choice = (do
      let l ← look s choice
      return { place := s.here, config := l.config, census := ← told (l.census s) }) := by
  obtain ⟨es, folder⟩ := h.folder
  have settled := settle_pathOf s.here folder h.proper
  unfold survey look
  rw [projectPlace_here h, ok_bind]
  simp only [Census.scan, Census.plan, settled]
  cases Config.load s.disk s.here (pathOf s.here) none with
  | error e => rfl
  | ok config =>
    cases hasked : choice.options config with
    | error e =>
      simp only [told, Except.mapError, ok_bind, hasked]
      rfl
    | ok asked =>
      simp only [told, Except.mapError, ok_bind, hasked]
      generalize (Census.frameworkOf s.disk s.here (pathOf s.here) asked).bind
        Framework.ofTag? = framework
      cases Discovery.files s.disk s.here (pathOf s.here)
          (Census.withFramework asked framework)
          ((framework.map Framework.includePatterns).getD [])
          ((framework.map Framework.excludePatterns).getD []) with
      | error e => rfl
      | ok files => rfl

theorem survey_ok {s : Setting} (h : s.Standing) {choice : Choice} {found : Surveyed} :
    survey s "." none choice = .ok found ↔
      ∃ l, look s choice = .ok l ∧ found.place = s.here ∧ found.config = l.config ∧
        l.census s = .ok found.census := by
  rw [survey_here h, bind_eq_ok]
  constructor
  · rintro ⟨l, hl, h⟩
    obtain ⟨census, hcensus, h⟩ := bind_eq_ok.mp h
    cases h
    exact ⟨l, hl, rfl, rfl, mapError_eq_ok.mp hcensus⟩
  · rintro ⟨l, hl, place, config, hcensus⟩
    refine ⟨l, hl, bind_eq_ok.mpr ⟨found.census, mapError_eq_ok.mpr hcensus, ?_⟩⟩
    rw [← place, ← config]
    rfl

/-! ### After a report has been written -/

/-- The place of the example declaration file that is written by default. -/
def reportPlace (here : Place) : Place := here ++ [defaultDirectory, Report.Format.env.fileName]

/-- The setting after a report of these bytes has been written. -/
def Setting.reported (s : Setting) (bytes : List UInt8) : Setting :=
  { s with disk := s.disk.put (.file bytes) (reportPlace s.here) }

/-- A report of these bytes can be written, and no link of the project notices. -/
structure Setting.Reports (s : Setting) (bytes : List UInt8) : Prop where
  standing : s.Standing
  tidy : Tidy s.disk
  writable : Writable s.disk (reportPlace s.here)
  links : LinksStand s.disk (s.reported bytes).disk s.here

variable {s : Setting} {bytes : List UInt8}

theorem Setting.Reports.reported (h : s.Reports bytes) : (s.reported bytes).Standing where
  folder := by
    obtain ⟨es, folder⟩ := h.standing.folder
    exact h.writable.folder_stays _ folder
  proper := h.standing.proper

theorem proper_reportPlace {here : Place} (h : ∀ n ∈ here, Path.Proper n) :
    ∀ n ∈ reportPlace here, Path.Proper n := by
  have proper : ∀ n ∈ [defaultDirectory, Report.Format.env.fileName], Path.Proper n := by decide
  intro n hn
  rcases List.mem_append.mp hn with hn | hn
  · exact h n hn
  · exact proper n hn

theorem reportPlace_ne (here : Place) (name : String) : here ++ [name] ≠ reportPlace here := by
  intro e
  have lengths := congrArg List.length e
  simp [reportPlace] at lengths

theorem reportPlace_last (here : Place) :
    (reportPlace here).getLast? ≠ some Gitignore.fileName := by
  have last : (reportPlace here).getLast? = some Report.Format.env.fileName := by
    simp [reportPlace]
  rw [last]
  decide

/-- No file at the root of the project notices that a report has been written. -/
theorem Setting.Reports.bytes?_root (h : s.Reports bytes) {path name : String}
    (spelled : namesFrom s.here path = s.here ++ [name]) (proper : Path.Proper name) :
    (s.reported bytes).disk.bytes? s.here path = s.disk.bytes? s.here path := by
  obtain ⟨es, folder⟩ := h.standing.folder
  exact h.writable.bytes?_put h.tidy h.links (List.prefix_refl _) folder spelled
    proper.not_climbing (reportPlace_ne s.here name)

theorem Setting.Reports.load (h : s.Reports bytes) :
    Config.load (s.reported bytes).disk s.here (pathOf s.here) none =
      Config.load s.disk s.here (pathOf s.here) none :=
  Config.load_congr h.standing.proper fun name hname _ spelled =>
    h.bytes?_root spelled (Config.proper_fileNames name hname)

theorem Setting.Reports.framework (h : s.Reports bytes) (options : Options) :
    Census.frameworkOf (s.reported bytes).disk s.here (pathOf s.here) options =
      Census.frameworkOf s.disk s.here (pathOf s.here) options := by
  obtain ⟨es, folder⟩ := h.standing.folder
  have proper := h.standing.proper
  have folder' : (s.reported bytes).disk.at? s.here = some (.folder (enter defaultDirectory
      (((s.disk.at? (s.here ++ [defaultDirectory])).getD blank).put (.file bytes)
        [Report.Format.env.fileName]) es)) := by
    rw [Setting.reported, reportPlace, at?_put_concat_append, folder]
    rfl
  have package : namesFrom s.here (pathOf s.here ++ "/package.json") =
      s.here ++ ["package.json"] := by
    rw [Framework.packagePath]
    exact Path.namesFrom_below proper (by decide) s.here
  have unmarked : ∀ m ∈ Framework.fileMarkers,
      m.1.toList.isPrefixOf defaultDirectory.toList = false := by decide
  unfold Census.frameworkOf
  rw [Framework.detect?_congr (h.bytes?_root package (by decide)) ?_]
  rw [Framework.namesIn_pathOf s.here folder proper, Framework.namesIn_pathOf s.here folder' proper]
  refine Framework.ofFileNames?_congr fun m hm => ?_
  simp only [mem_names_enter]
  constructor
  · rintro ⟨n, rfl | hn, marked⟩
    · rw [unmarked m hm] at marked
      cases marked
    · exact ⟨n, hn, marked⟩
  · rintro ⟨n, hn, marked⟩
    exact ⟨n, Or.inr hn, marked⟩

theorem withFramework_followSymlinks (options : Options) (framework : Option Framework) :
    (Census.withFramework options framework).followSymlinks = options.followSymlinks := by
  cases framework <;> rfl

theorem look_ok {choice : Choice} {l : Look} :
    look s choice = .ok l ↔
      ∃ asked, Config.load s.disk s.here (pathOf s.here) none = .ok l.config ∧
        choice.options l.config = .ok asked ∧
        l.tag = Census.frameworkOf s.disk s.here (pathOf s.here) asked ∧
        l.options = Census.withFramework asked (l.tag.bind Framework.ofTag?) ∧
        Discovery.files s.disk s.here (pathOf s.here) l.options
          (((l.tag.bind Framework.ofTag?).map Framework.includePatterns).getD [])
          (((l.tag.bind Framework.ofTag?).map Framework.excludePatterns).getD []) = .ok l.files := by
  constructor
  · intro h
    obtain ⟨config, hconfig, h⟩ := bind_eq_ok.mp h
    obtain ⟨asked, hasked, h⟩ := bind_eq_ok.mp h
    obtain ⟨files, hfiles, h⟩ := bind_eq_ok.mp h
    cases h
    exact ⟨asked, mapError_eq_ok.mp hconfig, mapError_eq_ok.mp hasked, rfl, rfl,
      mapError_eq_ok.mp hfiles⟩
  · rintro ⟨asked, hconfig, hasked, htag, hoptions, hfiles⟩
    obtain ⟨config, tag, options, files⟩ := l
    simp only at hconfig hasked htag hoptions hfiles
    subst htag hoptions
    unfold look
    simp only [told, Except.mapError, ok_bind, hconfig, hasked, hfiles]
    rfl

/-- After a report has been written a survey looks at the same things as before, except that it
may look at the report. -/
theorem Setting.Reports.look (h : s.Reports bytes) {choice : Choice}
    (stays : choice.followSymlinks = false) {l : Look} (hl : Command.look s choice = .ok l) :
    ∃ files, Command.look (s.reported bytes) choice = .ok { l with files } ∧
      SameBut (pathOf (reportPlace s.here)) l.files files := by
  obtain ⟨es, folder⟩ := h.standing.folder
  obtain ⟨asked, hconfig, hasked, htag, hoptions, hfiles⟩ := look_ok.mp hl
  have notFollowing : l.options.followSymlinks = false := by
    rw [hoptions, withFramework_followSymlinks, Choice.eq_accepted hasked]
    exact stays
  obtain ⟨files, hfiles', same⟩ := Discovery.files_put h.tidy h.writable h.links
    (reportPlace_last s.here) (proper_reportPlace h.standing.proper) rfl folder notFollowing hfiles
  refine ⟨files, look_ok.mpr ⟨asked, ?_, hasked, ?_, hoptions, hfiles'⟩, same⟩
  · exact h.load.trans hconfig
  · exact htag.trans (h.framework asked).symm

end EnvCensus.Command
