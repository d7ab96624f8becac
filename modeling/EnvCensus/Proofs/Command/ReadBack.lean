import EnvCensus.Proofs.Command.Outcome
import EnvCensus.Proofs.Merge

/-!
# What the next survey reads back

The report of a scan is a declaration file below the scanned project, so the
next survey may look at it. It then merges what the first one has merged, with
what it reads back from the report in one place among it.
-/

namespace EnvCensus

/-- Two findings are reported with the same name, requirement, default and references. -/
structure Finding.SameReport (f g : Finding) : Prop where
  name : f.name = g.name
  required : f.required = g.required
  defaultValue : f.defaultValue = g.defaultValue
  files : f.files = g.files

theorem Finding.SameReport.refl (f : Finding) : f.SameReport f := ⟨rfl, rfl, rfl, rfl⟩

namespace Command

open Disk Report
open Discovery (SameBut)
open Census (OnlyDeclares collected declared declared_nil shelfOf)

/-- What a survey reads back from the report that lies on the disk. -/
def readBack (s : Setting) (choice : Choice) : List Finding :=
  match look s choice with
  | .ok l =>
    if l.files.contains (pathOf (reportPlace s.here)) then
      declared (shelfOf s.disk s.here l.options) l.options [pathOf (reportPlace s.here)]
    else []
  | .error _ => []

/-! ### The report among the files -/

theorem onlyDeclares_reportPlace {here : Place} (h : ∀ n ∈ here, Path.Proper n) :
    OnlyDeclares (pathOf (reportPlace here)) := by
  have parsed := Path.parse_pathOf (proper_reportPlace h)
  have name : (Path.parse (pathOf (reportPlace here))).name = Format.env.fileName := by
    rw [parsed]
    simp [Path.name, reportPlace]
  have suffix : (Path.parse (pathOf (reportPlace here))).suffix = ".example" := by
    rw [Path.suffix, name]
    decide
  constructor
  · rw [Dotenv.handles, name]
    decide
  · rw [Script.handles, suffix, Bool.and_eq_false_iff]
    exact Or.inr (by decide)
  · rw [Manifest.handles, suffix]
    decide
  · simp only [Shell.handles, suffix, name]
    decide

theorem readBack_eq {s : Setting} {choice : Choice} {l : Look} (hl : look s choice = .ok l)
    {as back bs : List String} (files : l.files = as ++ back ++ bs)
    (has : pathOf (reportPlace s.here) ∉ as) (hbs : pathOf (reportPlace s.here) ∉ bs)
    (hback : back = [] ∨ back = [pathOf (reportPlace s.here)]) :
    readBack s choice = declared (shelfOf s.disk s.here l.options) l.options back := by
  unfold readBack
  simp only [hl, files]
  rcases hback with rfl | rfl
  · have outside : (as ++ [] ++ bs).contains (pathOf (reportPlace s.here)) = false := by
      simp [has, hbs]
    rw [outside, declared_nil]
    rfl
  · have inside : (as ++ [pathOf (reportPlace s.here)] ++ bs).contains
        (pathOf (reportPlace s.here)) = true := by simp
    rw [inside]
    rfl

variable {s : Setting} {bytes : List UInt8} {choice : Choice} {l : Look}

/-- The files that a survey looks at are no folders. -/
theorem look_leaf (standing : s.Standing) (tidy : Tidy s.disk) (stays : choice.followSymlinks = false)
    (hl : look s choice = .ok l) :
    ∀ path ∈ l.files, Discovery.IsLeafPath s.disk s.here path := by
  obtain ⟨es, folder⟩ := standing.folder
  obtain ⟨asked, -, hasked, -, hoptions, hfiles⟩ := look_ok.mp hl
  have notFollowing : l.options.followSymlinks = false := by
    rw [hoptions, withFramework_followSymlinks, Choice.eq_accepted hasked]
    exact stays
  exact Discovery.files_leaf (settle_pathOf s.here folder standing.proper) folder tidy.named
    notFollowing hfiles

/-- Nothing is read back where no report lies. -/
theorem readBack_missing (standing : s.Standing) (tidy : Tidy s.disk)
    (stays : choice.followSymlinks = false) (missing : s.disk.at? (reportPlace s.here) = none) :
    readBack s choice = [] := by
  cases hl : look s choice with
  | error e => simp only [readBack, hl]
  | ok l =>
    have outside : pathOf (reportPlace s.here) ∉ l.files := by
      intro inside
      obtain ⟨names, e, -, path, there, -⟩ := look_leaf standing tidy stays hl _ inside
      have place := Path.pathOf_injective (proper_reportPlace standing.proper)
        (tidy.proper_of_at? there) path
      rw [place, there] at missing
      cases missing
    have files : l.files = l.files ++ [] ++ [] := by simp
    rw [readBack_eq hl files outside (by simp) (Or.inl rfl), declared_nil]

/-- Before and after a report has been written a survey collects the same findings, except for
those that it reads back from the report. -/
theorem Setting.Reports.collected (h : s.Reports bytes) (stays : choice.followSymlinks = false)
    (hl : Command.look s choice = .ok l) :
    ∃ before after files,
      Command.look (s.reported bytes) choice = .ok { l with files } ∧
      Census.collected (shelfOf s.disk s.here l.options) Registry.standard l.files l.options =
        before ++ readBack s choice ++ after ∧
      Census.collected (shelfOf (s.reported bytes).disk s.here l.options) Registry.standard files
        l.options = before ++ readBack (s.reported bytes) choice ++ after ∧
      ∀ f ∈ before ++ after, ∀ r ∈ f.files, r.path ≠ pathOf (reportPlace s.here) := by
  obtain ⟨files, hl', as, bs, back, back', hfiles, hfiles', has, hbs, hback, hback'⟩ :=
    h.look stays hl
  have leaf := look_leaf h.standing h.tidy stays hl
  -- around the report the two walks find the same files, and their texts have not changed
  have other : ∀ p ∈ as ++ bs, p ∈ l.files ∧ p ≠ pathOf (reportPlace s.here) := by
    intro p hp
    rw [hfiles]
    rcases List.mem_append.mp hp with hp | hp
    · exact ⟨by simp [hp], fun e => has (e ▸ hp)⟩
    · exact ⟨by simp [hp], fun e => hbs (e ▸ hp)⟩
  have texts : ∀ p ∈ as ++ bs, (shelfOf (s.reported bytes).disk s.here l.options).text p =
      (shelfOf s.disk s.here l.options).text p := fun p hp =>
    Discovery.readText?_put h.tidy h.writable h.links (leaf p (other p hp).1) (other p hp).2
      s.here l.options.maxFileSize
  have declares : ∀ {back : List String}, back = [] ∨ back = [pathOf (reportPlace s.here)] →
      ∀ p ∈ back, OnlyDeclares p := by
    rintro back (rfl | rfl) p hp
    · cases hp
    · rw [List.mem_singleton.mp hp]
      exact onlyDeclares_reportPlace h.standing.proper
  let shelf := shelfOf s.disk s.here l.options
  refine ⟨Census.earlier shelf l.options as bs, Census.later shelf l.options as bs, files, hl',
    ?_, ?_, ?_⟩
  · rw [readBack_eq hl hfiles has hbs hback, hfiles]
    exact Census.collected_around (declares hback) rfl fun _ _ => rfl
  · rw [readBack_eq hl' hfiles' has hbs hback', hfiles']
    exact Census.collected_around (declares hback') rfl texts
  · intro f hf r hr
    obtain ⟨p, hp, points⟩ := Census.points_to_others f hf
    obtain ⟨names, e, -, rfl, there, -⟩ := leaf p (other p hp).1
    rw [points r hr]
    show Path.absolute (pathOf s.here) (pathOf (s.here ++ names)) ≠ _
    rw [Path.absolute_pathOf (h.tidy.proper_of_at? there)]
    exact (other _ hp).2

/-- What is read back has a reference, and points to the report. -/
theorem readBack_refers (proper : ∀ n ∈ s.here, Path.Proper n) :
    ∀ f ∈ readBack s choice, f.files ≠ [] ∧ f.PointsTo (pathOf (reportPlace s.here)) := by
  have absolute : Path.absolute (pathOf s.here) (pathOf (reportPlace s.here)) =
      pathOf (reportPlace s.here) := Path.absolute_pathOf (proper_reportPlace proper) _
  intro f hf
  unfold readBack at hf
  split at hf
  · split at hf
    · obtain ⟨p, hp, points⟩ := Census.declared_local f hf
      rw [List.mem_singleton.mp hp] at points
      exact ⟨(Census.declared_valid f hf).1, absolute ▸ points⟩
    · cases hf
  · cases hf

theorem SameReport.mentions {fs gs : List Finding} (h : List.Forall₂ Finding.SameReport fs gs) :
    fs.flatMap (·.files) = gs.flatMap (·.files) := by
  induction h with
  | nil => rfl
  | cons first _ ih => rw [List.flatMap_cons, List.flatMap_cons, first.files, ih]

/-- Once something is read back from a report that has not been looked at before, it is reported
with a reference to the report. -/
theorem readBack_nil {before after : List Finding} {findings again : List Finding}
    (proper : ∀ n ∈ s.here, Path.Proper n)
    (apart : ∀ f ∈ before ++ after, ∀ r ∈ f.files, r.path ≠ pathOf (reportPlace s.here))
    (first : Finding.mergeAll (before ++ after) = .ok findings)
    (second : Finding.mergeAll (before ++ readBack s choice ++ after) = .ok again)
    (same : List.Forall₂ Finding.SameReport findings again) : readBack s choice = [] := by
  cases back : readBack s choice with
  | nil => rfl
  | cons f rest =>
    have mem : f ∈ readBack s choice := by rw [back]; exact List.mem_cons_self
    obtain ⟨nonempty, points⟩ := readBack_refers proper f mem
    obtain ⟨r, hr⟩ := List.exists_mem_of_ne_nil _ nonempty
    have there : Finding.Mentions again r.key := (Finding.mergeAll_mentions second _).mpr
      (Finding.mentions_iff.mpr ⟨f, by simp [mem], r, hr, rfl⟩)
    rw [Finding.Mentions, ← SameReport.mentions same] at there
    obtain ⟨g, hg, q, hq, key⟩ :=
      Finding.mentions_iff.mp ((Finding.mergeAll_mentions first _).mp there)
    have path : q.path = r.path := congrArg Prod.fst key
    exact absurd (path.trans (points r hr)) (apart g hg q hq)

/-! ### The next survey -/

/-- The report file depends on nothing but the findings and the time of the scan. -/
theorem reportBytes_congr (here : Place) {c c' : Census} (findings : c'.findings = c.findings)
    (time : c'.scannedAt = c.scannedAt) : reportBytes here c' = reportBytes here c := by
  rw [reportBytes, reportBytes, EnvExample.text, EnvExample.text, findings, time]

/-- The surveys before and after a report has been written. -/
theorem Setting.Reports.survey (h : s.Reports bytes) (stays : choice.followSymlinks = false)
    {found : Surveyed} (surveyed : Command.survey s "." none choice = .ok found) :
    ∃ before after,
      (∀ f ∈ before ++ after, ∀ r ∈ f.files, r.path ≠ pathOf (reportPlace s.here)) ∧
      Finding.mergeAll (before ++ readBack s choice ++ after) = .ok found.census.findings ∧
      ∀ findings,
        Finding.mergeAll (before ++ readBack (s.reported bytes) choice ++ after) = .ok findings ↔
          ∃ again, Command.survey (s.reported bytes) "." none choice = .ok again ∧
            again.census.findings = findings := by
  obtain ⟨l, hl, -, -, hcensus⟩ := (survey_ok h.standing).mp surveyed
  obtain ⟨before, after, files, hl', first, second, apart⟩ := h.collected stays hl
  obtain ⟨merged, -⟩ := Census.ofFiles_ok hcensus
  rw [first] at merged
  refine ⟨before, after, apart, merged, fun findings => ?_⟩
  rw [← second]
  constructor
  · intro remerged
    obtain ⟨census, hcensus', same⟩ := Census.ofFiles_of_merged s.clock l.tag remerged
    exact ⟨⟨s.here, l.config, census⟩, (survey_ok h.reported).mpr ⟨_, hl', rfl, rfl, hcensus'⟩,
      same⟩
  · rintro ⟨again, resurveyed, rfl⟩
    obtain ⟨l', hl'', -, -, hcensus'⟩ := (survey_ok h.reported).mp resurveyed
    rw [hl'] at hl''
    cases hl''
    exact (Census.ofFiles_ok hcensus').1

theorem Setting.Reports.unchanged {found again : Surveyed} (h : s.Reports bytes)
    (surveyed : Command.survey s "." none choice = .ok found)
    (resurveyed : Command.survey (s.reported bytes) "." none choice = .ok again) :
    again.config = found.config ∧ again.census.scannedAt = found.census.scannedAt := by
  obtain ⟨l, hl, -, config, hcensus⟩ := (survey_ok h.standing).mp surveyed
  obtain ⟨l', hl', -, config', hcensus'⟩ := (survey_ok h.reported).mp resurveyed
  obtain ⟨-, loaded, -⟩ := look_ok.mp hl
  obtain ⟨-, loaded', -⟩ := look_ok.mp hl'
  have reloaded := (h.load.symm.trans loaded').symm.trans loaded
  constructor
  · rw [config, config']
    exact Except.ok.inj reloaded
  · rw [(Census.ofFiles_ok hcensus).2.1, (Census.ofFiles_ok hcensus').2.1]
    rfl

end Command

end EnvCensus
