import EnvCensus.Proofs.Census
import EnvCensus.Proofs.Merge
import EnvCensus.Proofs.Path
import EnvCensus.Proofs.Pool
import EnvCensus.Proofs.Provider.BuiltIn

/-!
# Scans with failing providers

The result of a scan does not depend on the order in which its providers end.
Providers that fail leave it as it would be without them, except that they are
counted with nothing.
-/

namespace EnvCensus

/-- Whatever the provider finds has a name and a reference. -/
def Provider.Checked (p : Provider) : Prop :=
  ∀ {shelf files options out}, p.collect shelf files options = .ok out →
    ∀ f ∈ out.findings, f.Valid

theorem Provider.BuiltIn.checked [Parsers] (b : Provider.BuiltIn) : b.provider.Checked := by
  intro shelf files options out h f hf
  rw [b.collect_findings h] at hf
  obtain ⟨p, -, hf⟩ := List.mem_flatMap.mp hf
  exact b.findingsIn_valid f hf

namespace Census

open Provider (Shelf Output)

variable {d : Disk} {here : Disk.Place} {clock : Clock} {registry : Registry} {target : Target}
  {options : Options}

/-! ### The order in which providers end -/

theorem workers_pos (options : Options) : 0 < workers options := by
  unfold workers
  omega

/-- What is read off a pool that has ended is what the providers give one after the other. -/
theorem readOff_eq_outputs {shelf : Shelf} {files : List String} {n : Nat}
    {schedule : List Pool.Event} {pool : Pool Provider (Except Failure Output)}
    (h : (Pool.start (registry.enabled options)).run? n (fun p => p.collect shelf files options)
      schedule = some pool) (done : pool.isDone = true) :
    readOff (registry.enabled options) pool = outputs shelf registry files options := by
  refine List.ext_getElem? fun i => ?_
  rw [readOff, outputs, List.getElem?_mapIdx, List.getElem?_map, Pool.lookup_of_done h done]
  cases (registry.enabled options)[i]? with
  | none => rfl
  | some p =>
    cases result : p.collect shelf files options <;> simp [resultOrEmpty, result]

/-- Whatever the schedule, a scan by a pool has the result of the scan. -/
theorem scanBy?_eq {schedule : List Pool.Event} {result : Except Failure Census}
    (h : scanBy? schedule d here clock registry target options = some result) :
    result = scan d here clock registry target options := by
  unfold scanBy? at h
  unfold scan
  cases planned : plan d here target options with
  | error e =>
    rw [planned] at h
    cases h
    rfl
  | ok plan =>
    rw [planned] at h
    obtain ⟨pool, ended, rfl⟩ := Option.map_eq_some_iff.mp h
    obtain ⟨run, done⟩ := Option.filter_eq_some_iff.mp ended
    rw [readOff_eq_outputs run done]
    rfl

/-- There is a schedule for every scan. -/
theorem exists_scanBy? (d : Disk) (here : Disk.Place) (clock : Clock) (registry : Registry)
    (target : Target) (options : Options) :
    ∃ schedule, scanBy? schedule d here clock registry target options =
      some (scan d here clock registry target options) := by
  have some_result : ∃ schedule result,
      scanBy? schedule d here clock registry target options = some result := by
    unfold scanBy?
    cases plan d here target options with
    | error e => exact ⟨[], _, rfl⟩
    | ok plan =>
      obtain ⟨schedule, pool, run, done⟩ := Pool.exists_done
        (fun p : Provider => p.collect (shelfOf d here plan.options) plan.files plan.options)
        (workers_pos plan.options) (Pool.start (registry.enabled plan.options))
      refine ⟨schedule, _, Option.map_eq_some_iff.mpr ⟨pool, ?_, rfl⟩⟩
      exact Option.filter_eq_some_iff.mpr ⟨run, done⟩
  obtain ⟨schedule, result, h⟩ := some_result
  exact ⟨schedule, scanBy?_eq h ▸ h⟩

/-! ### Providers that fail -/

theorem admits_withFramework (options : Options) (framework : Option Framework) (name : String) :
    Registry.admits (withFramework options framework) name = Registry.admits options name := by
  cases framework <;> rfl

/-- The plan for a directory has the framework and the files of the place that it settles to. -/
theorem plan_directory {path : String} {plan : Plan}
    (planned : Census.plan d here (.directory path) options = .ok plan) :
    ∃ place, d.settle here path = some place ∧
      plan.tag = frameworkOf d here (Disk.pathOf place) options ∧
      plan.options = withFramework options (plan.tag.bind Framework.ofTag?) ∧
      ∃ furtherInclude furtherExclude, Discovery.files d here (Disk.pathOf place) plan.options
        furtherInclude furtherExclude = .ok plan.files := by
  unfold Census.plan at planned
  cases settled : d.settle here path with
  | none =>
    simp only [settled] at planned
    cases planned
  | some place =>
    simp only [settled] at planned
    obtain ⟨files, found, h⟩ := bind_eq_ok.mp planned
    cases h
    exact ⟨place, rfl, rfl, rfl, _, _, found⟩

/-- The options of a plan are those that were given, with the prefixes of its framework. -/
theorem plan_options {plan : Plan} (planned : Census.plan d here target options = .ok plan) :
    plan.options = withFramework options (plan.tag.bind Framework.ofTag?) := by
  cases target with
  | files paths =>
    cases planned
    rfl
  | directory path =>
    obtain ⟨place, -, -, own, -⟩ := plan_directory planned
    exact own

/-- A single absolute path is scanned as it stands. -/
theorem plan_file {path : String} (absolute : ∀ here, Path.absolute here path = path) :
    Census.plan d here (.files [path]) options =
      .ok ⟨options.framework, withFramework options (options.framework.bind Framework.ofTag?),
        [path]⟩ := by
  simp [Census.plan, absolute, sortedSet, distinctBy]

/-- A framework has no effect on which providers take part. -/
theorem enabled_plan {plan : Plan} (planned : Census.plan d here target options = .ok plan)
    (registry : Registry) : registry.enabled plan.options = registry.enabled options := by
  simp only [Registry.enabled, plan_options planned, admits_withFramework]

/-- The figures of some providers are zero, and the other figures are those of another scan. -/
structure ZerosFor (names : List String) (figures others : List (String × Int)) : Prop where
  zeros : ∀ e ∈ figures, e.1 ∈ names → e.2 = 0
  others : figures.filter (fun e => !names.contains e.1) = others

/-- A scan differs from another one by figures of zero alone, one for each of the providers with
these names that took part. -/
structure DiffersByZeros (names : List String) (c c' : Census) : Prop where
  rest : { c with tally := { c.tally with
    filesByProvider := c'.tally.filesByProvider
    findingsByProvider := c'.tally.findingsByProvider } } = c'
  files : ZerosFor names c.tally.filesByProvider c'.tally.filesByProvider
  findings : ZerosFor names c.tally.findingsByProvider c'.tally.findingsByProvider

theorem providers_unregister (names : List String) (registry : Registry) :
    (names.foldl Registry.unregister registry).providers =
      registry.providers.filter fun p => !names.contains p.name := by
  induction names generalizing registry with
  | nil => simp
  | cons n names ih =>
    rw [List.foldl_cons, ih, Registry.unregister, List.filter_filter]
    refine List.filter_congr fun p _ => ?_
    by_cases same : p.name = n <;> simp [same, bne]

/-- Without some providers a scan has the outputs of the other ones. -/
theorem outputs_unregister (names : List String) (shelf : Shelf) (registry : Registry)
    (files : List String) (options : Options) :
    outputs shelf (names.foldl Registry.unregister registry) files options =
      (outputs shelf registry files options).filter fun o => !names.contains o.1 := by
  have enabled : (names.foldl Registry.unregister registry).enabled options =
      (registry.enabled options).filter fun p => !names.contains p.name := by
    rw [Registry.enabled, providers_unregister, Registry.enabled, List.filter_filter,
      List.filter_filter]
    exact List.filter_congr fun p _ => Bool.and_comm _ _
  rw [outputs, enabled, outputs, List.filter_map]
  rfl

/-- An output that is empty adds no finding. -/
theorem flatMap_findings_filter {names : List String} {os : List (String × Output)}
    (empty : ∀ o ∈ os, o.1 ∈ names → o.2 = {}) :
    (os.filter fun o => !names.contains o.1).flatMap (fun o => o.2.findings) =
      os.flatMap fun o => o.2.findings := by
  induction os with
  | nil => rfl
  | cons o os ih =>
    have rest := ih fun x hx => empty x (List.mem_cons_of_mem _ hx)
    rw [List.filter_cons]
    split
    · rw [List.flatMap_cons, List.flatMap_cons, rest]
    · rename_i named
      rw [List.flatMap_cons, rest, empty o List.mem_cons_self (by simpa using named)]
      rfl

/-- An output that is empty adds no parse error. -/
theorem parseErrors_filter {names : List String} {os : List (String × Output)}
    (empty : ∀ o ∈ os, o.1 ∈ names → o.2 = {}) :
    (os.filter fun o => !names.contains o.1).foldr (fun o n => o.2.parseErrors + n) 0 =
      os.foldr (fun o n => o.2.parseErrors + n) 0 := by
  induction os with
  | nil => rfl
  | cons o os ih =>
    have rest := ih fun x hx => empty x (List.mem_cons_of_mem _ hx)
    rw [List.filter_cons]
    split
    · rw [List.foldr_cons, List.foldr_cons, rest]
    · rename_i named
      rw [List.foldr_cons, rest, empty o List.mem_cons_self (by simpa using named), Nat.zero_add]

theorem zerosFor_map {names : List String} {os : List (String × Output)}
    (empty : ∀ o ∈ os, o.1 ∈ names → o.2 = {}) (figure : Output → Int) (zero : figure {} = 0) :
    ZerosFor names (os.map fun o => (o.1, figure o.2))
      ((os.filter fun o => !names.contains o.1).map fun o => (o.1, figure o.2)) where
  zeros := by
    intro e he named
    obtain ⟨o, ho, rfl⟩ := List.mem_map.mp he
    simp only [empty o ho named, zero]
  others := by
    rw [List.filter_map]
    rfl

/-- Outputs that are empty change a result by zeros alone. -/
theorem assemble_filter (clock : Clock) (fileCount : Nat) (framework : Option String)
    {names : List String} {os : List (String × Output)}
    (empty : ∀ o ∈ os, o.1 ∈ names → o.2 = {})
    (valid : ∀ f ∈ os.flatMap (fun o => o.2.findings), f.Valid) :
    ∃ c c', assemble clock fileCount framework os = .ok c ∧
      assemble clock fileCount framework (os.filter fun o => !names.contains o.1) = .ok c' ∧
      DiffersByZeros names c c' ∧
      c.tally.filesByProvider.map Prod.fst = os.map Prod.fst ∧
      c.tally.findingsByProvider.map Prod.fst = os.map Prod.fst := by
  obtain ⟨findings, merged, -, -⟩ := Finding.mergeAll_summary valid
  have merged' := merged
  rw [← flatMap_findings_filter empty] at merged'
  refine ⟨_, _, by rw [assemble, merged]; rfl, by rw [assemble, merged']; rfl, ⟨?_, ?_, ?_⟩, ?_, ?_⟩
  · simp only [parseErrors_filter empty]
  · exact zerosFor_map empty (fun o => (o.filesScanned : Int)) rfl
  · exact zerosFor_map empty (fun o => (o.findings.length : Int)) rfl
  · simp [Function.comp_def]
  · simp [Function.comp_def]

/-- A scan returns whichever of its providers fail and in whatever order they end. The ones that
fail change its result by a figure of zero for each of them, and the figures are in the order of
registration. -/
theorem scan_without_failing {plan : Plan}
    (planned : Census.plan d here target options = .ok plan)
    (checked : ∀ p ∈ registry.providers, p.Checked) {names : List String}
    (failing : ∀ p ∈ registry.enabled options, p.name ∈ names → ∃ e,
      p.collect (shelfOf d here plan.options) plan.files plan.options = .error e) :
    ∃ c c', scan d here clock registry target options = .ok c ∧
      scan d here clock (names.foldl Registry.unregister registry) target options = .ok c' ∧
      (∃ schedule, scanBy? schedule d here clock registry target options = some (.ok c)) ∧
      (∀ schedule result, scanBy? schedule d here clock registry target options = some result →
        result = .ok c) ∧
      DiffersByZeros names c c' ∧
      c.tally.filesByProvider.map Prod.fst = (registry.enabled options).map (·.name) ∧
      c.tally.findingsByProvider.map Prod.fst = (registry.enabled options).map (·.name) := by
  let os := outputs (shelfOf d here plan.options) registry plan.files plan.options
  have empty : ∀ o ∈ os, o.1 ∈ names → o.2 = {} := by
    intro o ho named
    obtain ⟨p, hp, rfl⟩ := List.mem_map.mp ho
    rw [enabled_plan planned] at hp
    obtain ⟨e, failed⟩ := failing p hp named
    simp only [failed]
  have valid : ∀ f ∈ os.flatMap (fun o => o.2.findings), f.Valid := by
    intro f hf
    obtain ⟨p, hp, out, result, hf⟩ := mem_collected.mp hf
    exact checked p (List.mem_of_mem_filter hp) result f hf
  have keys : os.map Prod.fst = (registry.enabled options).map (·.name) := by
    rw [← enabled_plan planned]
    simp [os, outputs, Function.comp_def]
  obtain ⟨c, c', hc, hc', differs, files, findings⟩ :=
    assemble_filter clock plan.files.length plan.tag empty valid
  have scanned : scan d here clock registry target options = .ok c := by
    rw [scan, planned]
    exact hc
  refine ⟨c, c', scanned, ?_, ?_, ?_, differs, files.trans keys, findings.trans keys⟩
  · rw [scan, planned]
    show assemble _ _ _ _ = _
    rw [outputs_unregister]
    exact hc'
  · rw [← scanned]
    exact exists_scanBy? d here clock registry target options
  · intro schedule result h
    rw [← scanned]
    exact scanBy?_eq h

/-- A provider that always fails. -/
def exploding : Provider where
  name := "exploding"
  source := .shell
  extensions := [".sh"]
  handles path := ".sh".toList.isSuffixOf path.toList
  collect _ _ _ := .error (.provider "exploding")

/-- A declaration file in a project. -/
def declaredToken : Disk :=
  .folder [("p", .folder [(".env", .file (Text.encode "TOKEN=1\n".toList))])]

/-- Its path. -/
def tokenPath : String := Disk.pathOf ["p", ".env"]

theorem tokenPath_absolute (here : String) : Path.absolute here tokenPath = tokenPath :=
  Path.absolute_pathOf (by decide) here

theorem plan_tokenPath (options : Options) (unframed : options.framework = none) :
    Census.plan declaredToken ["p"] (.files [tokenPath]) options =
      .ok ⟨none, options, [tokenPath]⟩ := by
  rw [plan_file tokenPath_absolute, unframed]
  rfl

/-- A provider that always fails, registered before the one for declaration files. -/
theorem scan_without_exploding :
    let registry : Registry := ⟨[exploding, Provider.dotenv]⟩
    let clock : Clock := ⟨"now", 0⟩
    let target := Target.files [tokenPath]
    let plan : Plan := ⟨none, {}, [tokenPath]⟩
    Census.plan declaredToken ["p"] target {} = .ok plan ∧
      (∀ p ∈ registry.providers, p.Checked) ∧
      (∀ p ∈ registry.enabled {}, p.name ∈ ["exploding"] → ∃ e,
        p.collect (shelfOf declaredToken ["p"] plan.options) plan.files plan.options =
          .error e) ∧
      ∃ c c', scan declaredToken ["p"] clock registry target {} = .ok c ∧
        scan declaredToken ["p"] clock (["exploding"].foldl Registry.unregister registry) target
          {} = .ok c' ∧
        (∃ schedule, scanBy? schedule declaredToken ["p"] clock registry target {} =
          some (.ok c)) ∧
        (∀ schedule result, scanBy? schedule declaredToken ["p"] clock registry target {} =
          some result → result = .ok c) ∧
        DiffersByZeros ["exploding"] c c' ∧
        c.tally.filesByProvider.map Prod.fst = (registry.enabled {}).map (·.name) ∧
        c.tally.findingsByProvider.map Prod.fst = (registry.enabled {}).map (·.name) := by
  intro registry clock target plan
  have planned : Census.plan declaredToken ["p"] target {} = .ok plan := plan_tokenPath {} rfl
  have checked : ∀ p ∈ registry.providers, p.Checked := by
    intro p hp
    rcases List.mem_pair.mp hp with rfl | rfl
    · intro shelf files options out h
      cases h
    · exact Provider.BuiltIn.checked .dotenv
  have failing : ∀ p ∈ registry.enabled {}, p.name ∈ ["exploding"] → ∃ e,
      p.collect (shelfOf declaredToken ["p"] plan.options) plan.files plan.options =
        .error e := by
    intro p hp named
    rcases List.mem_pair.mp (List.mem_of_mem_filter hp) with rfl | rfl
    · exact ⟨_, rfl⟩
    · simp [Provider.dotenv, Provider.ofReading] at named
  exact ⟨planned, checked, failing, scan_without_failing planned checked failing⟩

end Census

end EnvCensus
