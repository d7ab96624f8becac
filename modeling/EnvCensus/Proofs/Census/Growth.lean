import EnvCensus.Proofs.Census.Consistency
import EnvCensus.Proofs.Merge.Reordering

/-!
# Scans of more files

Unless a file breaks a provider, further files in a list take nothing from the
result of a scan. Each finding is found file by file, so what is collected only
grows, and the merge keeps what it had.
-/

namespace EnvCensus.Census

open Provider (Shelf BuiltIn)

variable {d : Disk} {here : Disk.Place} {options : Options} {shelf : Shelf}

/-- Where an enabled provider handles a file, it fails to read its text by not parsing it only. -/
def Unbroken (shelf : Shelf) (options : Options) (files : List String) : Prop :=
  ∀ b : BuiltIn, b.provider ∈ Registry.standard.enabled options → ∀ path ∈ files,
    b.provider.handles path = true → ∀ content, shelf.text path = some content →
      ∀ e, b.reading shelf.here content path options = .error e → e.isParseFailure = true

/-- An enabled provider succeeds on files that do not break it. -/
theorem Unbroken.collect {files : List String} (h : Unbroken shelf options files) {b : BuiltIn}
    (enabled : b.provider ∈ Registry.standard.enabled options) :
    ∃ out, b.provider.collect shelf files options = .ok out := by
  refine (b.collect_ok_iff options).mpr ?_
  rintro path hpath ⟨handled, content, text, -, faulty⟩
  have ends := b.reading_ends shelf.here content path options
  cases read : b.reading shelf.here content path options with
  | ok found => exact (ends.result read).1 faulty
  | error e =>
    have parse := h b enabled path hpath handled content text e read
    rw [(ends.failure read).mp faulty] at parse
    cases parse

/-- Whatever is collected from some files is collected from more of them. -/
theorem collected_subset {files more : List String} (unbroken : Unbroken shelf options more)
    (sub : files ⊆ more) :
    collected shelf Registry.standard files options ⊆
      collected shelf Registry.standard more options := by
  intro f hf
  obtain ⟨p, hp, out, result, hf⟩ := mem_collected.mp hf
  obtain ⟨b, rfl⟩ := BuiltIn.exists_of_mem (List.mem_of_mem_filter hp)
  obtain ⟨out', result'⟩ := unbroken.collect hp
  refine mem_collected.mpr ⟨_, hp, out', result', ?_⟩
  rw [b.collect_findings result] at hf
  rw [b.collect_findings result']
  obtain ⟨path, hpath, hf⟩ := List.mem_flatMap.mp hf
  obtain ⟨mem, handled⟩ := List.mem_filter.mp hpath
  exact List.mem_flatMap.mpr ⟨path, List.mem_filter.mpr ⟨sub mem, handled⟩, hf⟩

/-- With more files a scan says all that it said before, and maybe more. -/
theorem scan_more_files (clock : Clock) {files more : List String} {plan : Plan}
    (planned : Census.plan d here (.files more) options = .ok plan)
    (unbroken : Unbroken (shelfOf d here plan.options) plan.options plan.files)
    (sub : ∀ path ∈ files, Path.absolute (Disk.pathOf here) path ∈
      more.map (Path.absolute (Disk.pathOf here))) :
    ∃ c c', scan d here clock Registry.standard (.files files) options = .ok c ∧
      scan d here clock Registry.standard (.files more) options = .ok c' ∧
      ∀ m ∈ c.findings, ∃ n ∈ c'.findings, n.Subsumes m := by
  cases planned
  let read := withFramework options (options.framework.bind Framework.ofTag?)
  have fewer : sortedSet (files.map (Path.absolute (Disk.pathOf here))) ⊆
      sortedSet (more.map (Path.absolute (Disk.pathOf here))) := by
    intro path hpath
    obtain ⟨p, hp, rfl⟩ := List.mem_map.mp (mem_sortedSet.mp hpath)
    exact mem_sortedSet.mpr (sub p hp)
  obtain ⟨c, scanned, summary⟩ := ofFiles_standard d here clock options.framework read
    (sortedSet (files.map (Path.absolute (Disk.pathOf here))))
  obtain ⟨c', scanned', summary'⟩ := ofFiles_standard d here clock options.framework read
    (sortedSet (more.map (Path.absolute (Disk.pathOf here))))
  exact ⟨c, c', scanned, scanned', summary.subsumed (collected_subset unbroken fewer) summary'⟩

/-- A declaration file and a script that uses the variable. -/
def usedToken : Disk := .folder [("p", .folder [
  (".env", .file (Text.encode "TOKEN=1\n".toList)),
  ("run.sh", .file (Text.encode "echo $TOKEN\n".toList))])]

/-- The path of the script. -/
def scriptPath : String := Disk.pathOf ["p", "run.sh"]

theorem scriptPath_absolute (here : String) : Path.absolute here scriptPath = scriptPath :=
  Path.absolute_pathOf (by decide) here

theorem usedToken_unbroken :
    Unbroken (shelfOf usedToken ["p"] {}) {} [tokenPath, scriptPath] := by
  intro b _ path hpath handled content _ e read
  have failure := (b.reading_ends (shelfOf usedToken ["p"] {}).here content path {}).failure read
  rcases List.mem_pair.mp hpath with rfl | rfl <;> cases b
  case inl.dotenv | inr.shell | inr.dotenv | inl.shell => simpa [BuiltIn.Faulty] using failure
  all_goals exact absurd handled (by decide)

theorem plan_usedToken (options : Options) :
    Census.plan usedToken ["p"] (.files [tokenPath, scriptPath]) options =
      .ok ⟨options.framework, withFramework options (options.framework.bind Framework.ofTag?),
        [tokenPath, scriptPath]⟩ := by
  have sorted : sortedSet [tokenPath, scriptPath] = [tokenPath, scriptPath] := by
    rw [sortedSet, distinctBy_of_nodup (by decide)]
    exact List.mergeSort_of_pairwise (by decide)
  simp only [Census.plan, List.map_cons, List.map_nil, tokenPath_absolute, scriptPath_absolute,
    sorted]

/-- A script is scanned beside the declaration file that was scanned alone. -/
theorem scan_usedToken_more :
    let plan : Plan := ⟨none, {}, [tokenPath, scriptPath]⟩
    Census.plan usedToken ["p"] (.files [tokenPath, scriptPath]) {} = .ok plan ∧
      Unbroken (shelfOf usedToken ["p"] plan.options) plan.options plan.files ∧
      (∀ path ∈ [tokenPath], Path.absolute (Disk.pathOf ["p"]) path ∈
        [tokenPath, scriptPath].map (Path.absolute (Disk.pathOf ["p"]))) ∧
      ∃ c c', scan usedToken ["p"] ⟨"now", 0⟩ Registry.standard (.files [tokenPath]) {} = .ok c ∧
        scan usedToken ["p"] ⟨"now", 0⟩ Registry.standard (.files [tokenPath, scriptPath]) {} =
          .ok c' ∧
        ∀ m ∈ c.findings, ∃ n ∈ c'.findings, n.Subsumes m := by
  intro plan
  have sub : ∀ path ∈ [tokenPath], Path.absolute (Disk.pathOf ["p"]) path ∈
      [tokenPath, scriptPath].map (Path.absolute (Disk.pathOf ["p"])) := by simp
  have planned : Census.plan usedToken ["p"] (.files [tokenPath, scriptPath]) {} = .ok plan :=
    plan_usedToken {}
  exact ⟨planned, usedToken_unbroken, sub,
    scan_more_files ⟨"now", 0⟩ planned usedToken_unbroken sub⟩

end EnvCensus.Census
