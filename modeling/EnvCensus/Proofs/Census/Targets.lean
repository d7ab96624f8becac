import EnvCensus.Proofs.Census.Consistency
import EnvCensus.Proofs.Framework

/-!
# Two ways to scan

A directory is scanned by scanning the files that are discovered in it. Whoever
scans a list of these files gets the same result, whatever the order of the
list and however often it names a file, as long as the framework of the first
scan is given along: its prefixes are then the same, and no built-in provider
looks at the framework itself.
-/

namespace EnvCensus

/-! ### Providers and the framework -/

theorem Shell.scan_reframed (here content path : String) (options : Options)
    (tag : Option String) :
    Shell.scan here content path { options with framework := tag } =
      Shell.scan here content path options := by
  rw [scan_eq_batch, scan_eq_batch]
  rfl

namespace Provider

/-- The provider does not look at the framework that the options name. -/
def Blind (p : Provider) : Prop :=
  ∀ shelf files (options : Options) tag,
    p.collect shelf files { options with framework := tag } = p.collect shelf files options

/-- A collection is the same under options under which every text reads the same. -/
theorem collectAll_options {reading : Reading} {shelf : Shelf} {options options' : Options}
    (same : ∀ here content path,
      reading here content path options' = reading here content path options)
    (files : List String) :
    collectAll reading shelf options' files = collectAll reading shelf options files := by
  induction files with
  | nil => rfl
  | cons p files ih =>
    have first : collectFile reading shelf options' p = collectFile reading shelf options p := by
      simp only [collectFile, same]
    rw [collectAll, collectAll, first, ih]

theorem BuiltIn.reading_blind (b : BuiltIn) (options : Options) (tag : Option String)
    (here content path : String) :
    b.reading here content path { options with framework := tag } =
      b.reading here content path options := by
  cases b with
  | script => rfl
  | dotenv => rfl
  | manifest => rfl
  | shell => exact Shell.scan_reframed here content path options tag

theorem BuiltIn.blind (b : BuiltIn) : b.provider.Blind := by
  intro shelf files options tag
  rw [b.collect_eq, b.collect_eq, collectAll_options (b.reading_blind options tag)]

end Provider

namespace Census

open Provider (Shelf BuiltIn)

variable {d : Disk} {here : Disk.Place} {clock : Clock} {registry : Registry} {options : Options}
  {directory : String} {files : List String}

theorem standard_blind : ∀ p ∈ Registry.standard.providers, p.Blind := by
  intro p hp
  obtain ⟨b, rfl⟩ := BuiltIn.exists_of_mem hp
  exact b.blind

theorem withFramework_reframed (options : Options) (tag : Option String)
    (framework : Option Framework) :
    withFramework { options with framework := tag } framework =
      { withFramework options framework with framework := tag } := by
  cases framework <;> rfl

/-- Naming another framework in the options changes nothing where no provider looks at it. -/
theorem ofFiles_reframed (blind : ∀ p ∈ registry.providers, p.Blind) (tag : Option String)
    (options : Options) (named : Option String) (files : List String) :
    ofFiles d here clock registry tag { options with framework := named } files =
      ofFiles d here clock registry tag options files := by
  have same : outputs (shelfOf d here options) registry files { options with framework := named } =
      outputs (shelfOf d here options) registry files options := by
    refine List.map_congr_left fun p hp => ?_
    rw [blind p (List.mem_of_mem_filter hp)]
  exact congrArg (assemble clock files.length tag) same

/-! ### Lists of the same files -/

/-- Sorting a list with repetitions gives the sorted list of its members. -/
theorem sortedSet_eq {xs sorted : List String} (once : sorted.Nodup)
    (ordered : Collation.inOrder sorted = sorted) (same : ∀ x, x ∈ xs ↔ x ∈ sorted) :
    sortedSet xs = sorted := by
  have perm : sorted.Perm (distinctBy id xs) :=
    (List.perm_ext_iff_of_nodup once (nodup_distinctBy_id xs)).mpr fun x =>
      (same x).symm.trans mem_distinctBy_id.symm
  exact Collation.inOrder_unique perm (ordered ▸ Collation.inOrder_pairwise sorted)

theorem sortedSet_listed (tidy : Disk.Tidy d) {plan : Plan}
    (planned : Census.plan d here (.directory directory) options = .ok plan)
    (listed : ∀ path, path ∈ files ↔ path ∈ plan.files) :
    sortedSet (files.map (Path.absolute (Disk.pathOf here))) = plan.files := by
  have absolute : files.map (Path.absolute (Disk.pathOf here)) = files := by
    have each : ∀ path ∈ files, Path.absolute (Disk.pathOf here) path = id path :=
      fun path hpath => plan_files_absolute tidy planned path ((listed path).mp hpath)
    rw [List.map_congr_left each, List.map_id]
  obtain ⟨root, -, -, -, furtherInclude, furtherExclude, found⟩ := plan_directory planned
  obtain ⟨once, ordered⟩ := Discovery.files_ordered tidy.named found
  rw [absolute]
  exact sortedSet_eq once ordered listed

/-- A directory and a list of the files discovered in it, in any order and with repetitions, are
scanned with the same result, once the framework of the directory is given with the list. -/
theorem scan_listed (tidy : Disk.Tidy d) (clock : Clock)
    (blind : ∀ p ∈ registry.providers, p.Blind) {plan : Plan}
    (planned : Census.plan d here (.directory directory) options = .ok plan) {c : Census}
    (scanned : scan d here clock registry (.directory directory) options = .ok c)
    (listed : ∀ path, path ∈ files ↔ path ∈ plan.files) :
    (∀ p ∈ Registry.standard.providers, p.Blind) ∧
      scan d here clock registry (.files files) { options with framework := c.framework } =
        .ok c := by
  refine ⟨standard_blind, ?_⟩
  -- Both plans have one tag, the same files and options that differ by the framework named in them.
  rw [scan, planned] at scanned
  have tag : c.framework = plan.tag := ofFiles_framework scanned
  have planned' : Census.plan d here (.files files) { options with framework := plan.tag } =
      .ok ⟨plan.tag, { plan.options with framework := plan.tag }, plan.files⟩ := by
    rw [Census.plan, sortedSet_listed tidy planned listed, withFramework_reframed,
      plan_options planned]
  rw [tag, scan, planned', ok_bind, ofFiles_reframed blind]
  exact scanned

/-! ### A project of two files -/

/-- The configuration file of a project, and a script beside it. -/
def nextFiles : List (String × List UInt8) := [
  ("next.config.js", Text.encode "module.exports = { env: process.env.KEY };\n".toList),
  ("run.sh", Text.encode "echo $TOKEN\n".toList)]

/-- A disk with the project, which shows its framework by a name. -/
def nextProject : Disk := .folder [("p", .folder (nextFiles.map fun e => (e.1, .file e.2)))]

def nextPaths : List String := [Disk.pathOf ["p", "next.config.js"], Disk.pathOf ["p", "run.sh"]]

/-- The options of the scan of the project. -/
def nextOptions : Options := withFramework {} (some .nextjs)

theorem nextProject_folder :
    nextProject.at? ["p"] = some (.folder (nextFiles.map fun e => (e.1, .file e.2))) := rfl

theorem nextProject_tidy : Disk.Tidy nextProject := by
  refine .folder (by simp) (by simp; decide) fun e he => ?_
  rw [List.mem_singleton.mp he]
  refine .folder (by decide) (by decide) fun e he => ?_
  obtain ⟨file, -, rfl⟩ := List.mem_map.mp he
  exact .file _

theorem nextProject_frameworkOf :
    frameworkOf nextProject ["p"] (Disk.pathOf ["p"]) {} = some "nextjs" := by
  rw [frameworkOf, Framework.detect?_of_names ["p"] nextProject_folder (by decide) rfl]
  rfl

theorem nextProject_query : ∃ q, Discovery.Query.make nextOptions Framework.nextjs.includePatterns
      Framework.nextjs.excludePatterns = .ok q ∧
    ∀ e ∈ nextFiles, q.takesFile [] ([] ++ [e.1]) e.2 = true := by
  have taken : (Discovery.Query.make nextOptions Framework.nextjs.includePatterns
      Framework.nextjs.excludePatterns).map (fun q =>
        nextFiles.all fun e => q.takesFile [] ([] ++ [e.1]) e.2) = .ok true := by
    decide +kernel
  obtain ⟨q, hq, all⟩ := map_eq_ok.mp taken
  exact ⟨q, hq, List.all_eq_true.mp all⟩

theorem nextProject_files : Discovery.files nextProject ["p"] (Disk.pathOf ["p"]) nextOptions
    Framework.nextjs.includePatterns Framework.nextjs.excludePatterns = .ok nextPaths := by
  obtain ⟨q, hq, taken⟩ := nextProject_query
  have unlisted : nextProject.fileFrom? Disk.linkLimit ["p"] [Gitignore.fileName] = none :=
    Disk.fileFrom?_missing 39 nextProject_folder (by decide) rfl
  have settled := Disk.settle_pathOf ["p"] nextProject_folder (by decide)
  have walk := Discovery.walkEntries_files nextProject q Disk.linkLimit ["p"] [] [] nextFiles
  rw [List.filter_eq_self.mpr taken] at walk
  have sorted : Collation.inOrder nextPaths = nextPaths :=
    Collation.inOrder_unique (.refl _) (by decide)
  exact (Discovery.files_ok settled nextProject_folder).mpr
    ⟨q, [], _, hq, Discovery.listsBelow_of_none unlisted, walk, sorted.symm⟩

theorem plan_nextProject :
    Census.plan nextProject ["p"] (.directory (Disk.pathOf ["p"])) {} =
      .ok ⟨some "nextjs", nextOptions, nextPaths⟩ := by
  have settled := Disk.settle_pathOf ["p"] nextProject_folder (by decide)
  have files := nextProject_files
  simp only [Census.plan, settled, nextProject_frameworkOf]
  exact bind_eq_ok.mpr ⟨nextPaths, files, rfl⟩

/-- The project is scanned, and its files in the other order and one of them twice. -/
theorem scan_nextProject_listed :
    let plan : Plan := ⟨some "nextjs", nextOptions, nextPaths⟩
    let project := Target.directory (Disk.pathOf ["p"])
    let files := nextPaths.reverse ++ nextPaths.take 1
    Disk.Tidy nextProject ∧ (∀ p ∈ Registry.standard.providers, p.Blind) ∧
      Census.plan nextProject ["p"] project {} = .ok plan ∧
      (∀ path, path ∈ files ↔ path ∈ plan.files) ∧
      ∃ c, scan nextProject ["p"] ⟨"now", 0⟩ Registry.standard project {} = .ok c ∧
        (∀ p ∈ Registry.standard.providers, p.Blind) ∧
        scan nextProject ["p"] ⟨"now", 0⟩ Registry.standard (.files files)
          { framework := c.framework } = .ok c := by
  intro plan project files
  have listed : ∀ path, path ∈ files ↔ path ∈ plan.files := by
    intro path
    simp [files, plan, nextPaths]
    tauto
  obtain ⟨c, scanned, -⟩ := scan_checked standard_checked ⟨"now", 0⟩ plan_nextProject
  exact ⟨nextProject_tidy, standard_blind, plan_nextProject, listed, c, scanned,
    scan_listed nextProject_tidy ⟨"now", 0⟩ standard_blind plan_nextProject scanned listed⟩

end Census

end EnvCensus
