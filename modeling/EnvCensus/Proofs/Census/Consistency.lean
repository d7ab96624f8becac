import EnvCensus.Proofs.Census.Failures
import EnvCensus.Proofs.Discovery
import EnvCensus.Proofs.Merge
import Mathlib.Algebra.Ring.Int.Defs
import Mathlib.Data.List.Perm.Subperm

/-!
# Figures and places of a scan

The figures of a scan agree with its findings, with each other and with the
files that were scanned, and every reference of a finding leads to a file that
an enabled provider was there for.
-/

namespace EnvCensus

/-- A list of findings merges to no more findings than it has. -/
theorem Finding.Summary.length_le {fs ms : List Finding} (h : Summary fs ms) :
    ms.length ≤ fs.length := by
  have sub : ms.map (·.name) ⊆ fs.map (·.name) := fun n hn => (h.names n).mp hn
  simpa using (List.subperm_of_subset h.nodup sub).length_le

namespace Census

open Provider (Shelf Output BuiltIn)

variable {d : Disk} {here : Disk.Place} {clock : Clock} {target : Target} {options : Options}
  {shelf : Shelf} {files : List String}

/-! ### Figures -/

/-- Every finding is counted under one source. -/
theorem sum_countBySource (findings : List Finding) :
    ((countBySource findings).map Prod.snd).sum = findings.length := by
  induction findings with
  | nil => rfl
  | cons f rest ih =>
    simp only [countBySource, Source.all, List.map_cons, List.map_nil, List.sum_cons, List.sum_nil,
      List.countP_cons] at ih ⊢
    cases f.source <;> simp at ih ⊢ <;> omega

theorem parseErrors_le_sum {os : List (String × Output)}
    (each : ∀ o ∈ os, o.2.parseErrors ≤ o.2.filesScanned) :
    ((os.foldr (fun o n => o.2.parseErrors + n) 0 : Nat) : Int) ≤
      ((os.map fun o => (o.1, (o.2.filesScanned : Int))).map Prod.snd).sum := by
  induction os with
  | nil => exact le_refl 0
  | cons o os ih =>
    rw [List.forall_mem_cons] at each
    have first := each.1
    have rest := ih each.2
    simp only [List.foldr_cons, List.map_cons, List.sum_cons]
    omega

theorem sum_findings (os : List (String × Output)) :
    ((os.map fun o => (o.1, (o.2.findings.length : Int))).map Prod.snd).sum =
      (os.flatMap fun o => o.2.findings).length := by
  induction os with
  | nil => rfl
  | cons o os ih =>
    simp only [List.map_cons, List.sum_cons, List.flatMap_cons, List.length_append] at ih ⊢
    omega

/-- A built-in provider counts the files that it handles, and among them those that it cannot
parse. -/
theorem outputs_counts [Parsers] : ∀ o ∈ outputs shelf Registry.standard files options,
    o.2.parseErrors ≤ o.2.filesScanned ∧ o.2.filesScanned ≤ files.length := by
  intro o ho
  obtain ⟨p, hp, rfl⟩ := List.mem_map.mp ho
  obtain ⟨b, rfl⟩ := BuiltIn.exists_of_mem (List.mem_of_mem_filter hp)
  cases result : b.provider.collect shelf files options with
  | error e => exact ⟨Nat.le_refl 0, Nat.zero_le _⟩
  | ok out =>
    rw [b.collect_eq] at result
    obtain ⟨scanned, errors⟩ := Provider.collectAll_counts result
    have few := List.length_filter_le b.provider.handles files
    exact ⟨by simp only; omega, by simp only; omega⟩

/-! ### Places -/

/-- What the built-in providers collect was read in a file by an enabled one that handles it. -/
theorem mem_collected_standard [Parsers] {f : Finding}
    (h : f ∈ collected shelf Registry.standard files options) :
    ∃ b : BuiltIn, b.provider ∈ Registry.standard.enabled options ∧ ∃ path ∈ files,
      b.provider.handles path = true ∧ ∃ content found,
        b.reading shelf.here content path options = .ok found ∧ f ∈ found := by
  obtain ⟨p, hp, out, result, hf⟩ := mem_collected.mp h
  obtain ⟨b, rfl⟩ := BuiltIn.exists_of_mem (List.mem_of_mem_filter hp)
  rw [b.collect_findings result] at hf
  obtain ⟨path, hpath, hf⟩ := List.mem_flatMap.mp hf
  obtain ⟨mem, handled⟩ := List.mem_filter.mp hpath
  exact ⟨b, hp, path, mem, handled, Provider.read_of_mem_findingsIn hf⟩

/-- What the built-in providers collect points to files that an enabled one of them handles. -/
theorem collected_standard_place [Parsers] {f : Finding}
    (h : f ∈ collected shelf Registry.standard files options) :
    ∃ p ∈ Registry.standard.enabled options, ∃ path ∈ files, p.handles path = true ∧
      f.PointsTo (Path.absolute shelf.here path) := by
  obtain ⟨b, enabled, path, mem, handled, content, found, read, hf⟩ := mem_collected_standard h
  exact ⟨_, enabled, path, mem, handled, b.reading_local read f hf⟩

/-! ### Checked providers -/

theorem standard_checked [Parsers] : ∀ p ∈ Registry.standard.providers, p.Checked := by
  intro p hp
  obtain ⟨b, rfl⟩ := BuiltIn.exists_of_mem hp
  exact b.checked

theorem collected_valid {registry : Registry} (checked : ∀ p ∈ registry.providers, p.Checked) :
    ∀ f ∈ collected shelf registry files options, f.Valid := by
  intro f hf
  obtain ⟨p, hp, out, result, hf⟩ := mem_collected.mp hf
  exact checked p (List.mem_of_mem_filter hp) result f hf

theorem collected_standard_valid [Parsers] :
    ∀ f ∈ collected shelf Registry.standard files options, f.Valid :=
  collected_valid standard_checked

/-- What checked providers find in a list of files can be merged. -/
theorem ofFiles_checked {registry : Registry} (checked : ∀ p ∈ registry.providers, p.Checked)
    (d : Disk) (here : Disk.Place) (clock : Clock) (tag : Option String) (options : Options)
    (files : List String) :
    ∃ c, ofFiles d here clock registry tag options files = .ok c ∧
      Finding.Summary (collected (shelfOf d here options) registry files options) c.findings ∧
      ∀ f ∈ c.findings, f.Valid := by
  obtain ⟨findings, merged, summary, valid⟩ := Finding.mergeAll_summary
    (collected_valid checked : ∀ f ∈ collected (shelfOf d here options) registry files options,
      f.Valid)
  obtain ⟨c, scanned, rfl⟩ := ofFiles_of_merged clock tag merged
  exact ⟨c, scanned, summary, valid⟩

/-- What the built-in providers find in a list of files can be merged. -/
theorem ofFiles_standard [Parsers] (d : Disk) (here : Disk.Place) (clock : Clock) (tag : Option String)
    (options : Options) (files : List String) :
    ∃ c, ofFiles d here clock Registry.standard tag options files = .ok c ∧ Finding.Summary
      (collected (shelfOf d here options) Registry.standard files options) c.findings := by
  obtain ⟨c, scanned, summary, -⟩ := ofFiles_checked standard_checked d here clock tag options files
  exact ⟨c, scanned, summary⟩

/-- A scan with checked providers that finds what to scan has a result. -/
theorem scan_checked {registry : Registry} (checked : ∀ p ∈ registry.providers, p.Checked)
    (clock : Clock) {plan : Plan} (planned : Census.plan d here target options = .ok plan) :
    ∃ c, scan d here clock registry target options = .ok c ∧ c.framework = plan.tag ∧
      Finding.Summary (collected (shelfOf d here plan.options) registry plan.files plan.options)
        c.findings ∧
      ∀ f ∈ c.findings, f.Valid := by
  obtain ⟨c, scanned, summary, valid⟩ :=
    ofFiles_checked checked d here clock plan.tag plan.options plan.files
  refine ⟨c, ?_, ofFiles_framework scanned, summary, valid⟩
  rw [scan, planned]
  exact scanned

/-- What is certain of the result of a scan with checked providers. -/
theorem scan_ok {registry : Registry} (checked : ∀ p ∈ registry.providers, p.Checked)
    {c : Census} (scanned : scan d here clock registry target options = .ok c) :
    (c.findings.map (·.name)).Nodup ∧ (∀ f ∈ c.findings, f.Valid) ∧
      c.scannedAt = clock.time ∧ ∀ e ∈ c.tally.bySource, ∃ s : Source, e.1 = s.tag := by
  obtain ⟨plan, planned, scanned⟩ := bind_eq_ok.mp scanned
  obtain ⟨c', scanned', summary, valid⟩ :=
    ofFiles_checked checked d here clock plan.tag plan.options plan.files
  cases scanned.symm.trans scanned'
  obtain ⟨-, time, bySource⟩ := ofFiles_ok scanned
  refine ⟨summary.nodup, valid, time, ?_⟩
  rw [bySource]
  exact countBySource_tags _

/-! ### Files of a plan -/

theorem mem_sortedSet {xs : List String} {x : String} : x ∈ sortedSet xs ↔ x ∈ xs := by
  rw [sortedSet, (List.mergeSort_perm _ _).mem_iff, mem_distinctBy_id]

/-- The files of a plan are absolute paths already. -/
theorem plan_files_absolute (tidy : Disk.Tidy d) {plan : Plan}
    (planned : Census.plan d here target options = .ok plan) :
    ∀ path ∈ plan.files, Path.absolute (Disk.pathOf here) path = path := by
  intro path hpath
  cases target with
  | files paths =>
    cases planned
    obtain ⟨p, -, rfl⟩ := List.mem_map.mp (mem_sortedSet.mp hpath)
    exact Path.absolute_absolute (Path.isAbsolute_slash _) _ p
  | directory directory =>
    obtain ⟨root, -, -, -, furtherInclude, furtherExclude, found⟩ := plan_directory planned
    obtain ⟨place, proper, rfl⟩ := Discovery.files_proper tidy.named found path hpath
    exact Path.absolute_pathOf proper _

/-- Every reference of a merged finding leads to a file of the plan that an enabled provider
handles. -/
theorem merged_places [Parsers] (tidy : Disk.Tidy d) {plan : Plan}
    (planned : Census.plan d here target options = .ok plan) {findings : List Finding}
    (merged : Finding.mergeAll (collected (shelfOf d here plan.options) Registry.standard
      plan.files plan.options) = .ok findings) :
    ∀ f ∈ findings, ∀ r ∈ f.files, r.path ∈ plan.files ∧
      ∃ p ∈ Registry.standard.enabled options, p.handles r.path = true := by
  intro f hf r hr
  have mentioned := (Finding.mergeAll_mentions merged r.key).mp
    (Finding.mentions_iff.mpr ⟨f, hf, r, hr, rfl⟩)
  obtain ⟨g, hg, r', hr', same⟩ := Finding.mentions_iff.mp mentioned
  obtain ⟨p, hp, path, mem, handled, place⟩ := collected_standard_place hg
  have there : r.path = path := calc
    r.path = r'.path := (congrArg Prod.fst same).symm
    _ = Path.absolute (Disk.pathOf here) path := place r' hr'
    _ = path := plan_files_absolute tidy planned path mem
  rw [enabled_plan planned] at hp
  rw [there]
  exact ⟨mem, p, hp, handled⟩

/-! ### The whole result -/

/-- The result of scanning files with the enabled providers agrees with itself and with both. -/
structure Consistent (providers : List Provider) (files : List String) (c : Census) : Prop where
  names : (c.findings.map (·.name)).Nodup
  totalFiles : c.tally.totalFiles = files.length
  totalFindings : c.tally.totalFindings = c.findings.length
  sources : c.tally.bySource.map Prod.fst = Source.all.map Source.tag
  bySource : ∀ s : Source, (s.tag, (c.findings.countP (·.source = s) : Int)) ∈ c.tally.bySource
  sourceSum : (c.tally.bySource.map Prod.snd).sum = c.tally.totalFindings
  fileKeys : c.tally.filesByProvider.map Prod.fst = providers.map (·.name)
  findingKeys : c.tally.findingsByProvider.map Prod.fst = providers.map (·.name)
  parseErrors : c.tally.parseErrors ≤ (c.tally.filesByProvider.map Prod.snd).sum
  filesScanned : ∀ e ∈ c.tally.filesByProvider, e.2 ≤ c.tally.totalFiles
  findingSum : c.tally.totalFindings ≤ (c.tally.findingsByProvider.map Prod.snd).sum
  places : ∀ f ∈ c.findings, ∀ r ∈ f.files,
    r.path ∈ files ∧ ∃ p ∈ providers, p.handles r.path = true

/-- A scan with the built-in providers that finds what to scan has a result, and a consistent
one. -/
theorem scan_consistent [Parsers] (tidy : Disk.Tidy d) (clock : Clock) {plan : Plan}
    (planned : Census.plan d here target options = .ok plan) :
    ∃ c, scan d here clock Registry.standard target options = .ok c ∧
      Consistent (Registry.standard.enabled options) plan.files c := by
  let os := outputs (shelfOf d here plan.options) Registry.standard plan.files plan.options
  have valid : ∀ f ∈ os.flatMap (fun o => o.2.findings), f.Valid := collected_standard_valid
  obtain ⟨findings, merged, summary, -⟩ := Finding.mergeAll_summary valid
  have keys : os.map Prod.fst = (Registry.standard.enabled options).map (·.name) := by
    rw [← enabled_plan planned]
    simp [os, outputs, Function.comp_def]
  refine ⟨_, by rw [scan, planned]; show assemble _ _ _ os = _; rw [assemble, merged]; rfl, ?_⟩
  refine ⟨summary.nodup, rfl, rfl, ?_, ?_, ?_, ?_, ?_, ?_, ?_, ?_, ?_⟩
  · simp [countBySource, Function.comp_def]
  · exact fun s => List.mem_map.mpr ⟨s, by cases s <;> decide, rfl⟩
  · exact sum_countBySource findings
  · rw [← keys]
    simp [Function.comp_def]
  · rw [← keys]
    simp [Function.comp_def]
  · exact parseErrors_le_sum fun o ho => (outputs_counts o ho).1
  · intro e he
    obtain ⟨o, ho, rfl⟩ := List.mem_map.mp he
    exact Int.ofNat_le.mpr (outputs_counts o ho).2
  · rw [sum_findings]
    exact Int.ofNat_le.mpr summary.length_le
  · exact merged_places tidy planned merged

theorem declaredToken_tidy : Disk.Tidy declaredToken := by
  refine .folder (by simp) (by simp; decide) fun e he => ?_
  rw [List.mem_singleton.mp he]
  refine .folder (by simp) (by simp; decide) fun e he => ?_
  rw [List.mem_singleton.mp he]
  exact .file _

/-- A declaration file is scanned, with one provider left out. -/
theorem scan_declaredToken_consistent :
    let options : Options := { excludeProviders := ["shell"] }
    let plan : Plan := ⟨none, options, [tokenPath]⟩
    Disk.Tidy declaredToken ∧
      Census.plan declaredToken ["p"] (.files [tokenPath]) options = .ok plan ∧
      ∃ c, scan declaredToken ["p"] ⟨"now", 0⟩ Registry.standard (.files [tokenPath]) options =
          .ok c ∧
        Consistent (Registry.standard.enabled options) plan.files c := by
  intro options plan
  have planned : Census.plan declaredToken ["p"] (.files [tokenPath]) options = .ok plan :=
    plan_tokenPath options rfl
  exact ⟨declaredToken_tidy, planned, scan_consistent declaredToken_tidy _ planned⟩

end Census

end EnvCensus
