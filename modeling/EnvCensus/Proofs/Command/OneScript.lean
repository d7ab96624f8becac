import EnvCensus.Proofs.Census.OneScript
import EnvCensus.Proofs.Command.Outcome
import Mathlib.Data.List.Permutation

/-!
# Surveys of one script

A survey of a project that holds nothing but a script takes the script and
scans it under the default options.
-/

namespace EnvCensus.Command

open Disk
open Census (scriptDisk appPath Finds)

variable {script : String} {findings : List Finding}

/-- The options of a run that asks for nothing. -/
def defaultOptions : Options := Choice.accepted {} {}

/-- A project of nothing but a script. -/
def scriptSetting (script : String) : Setting where
  disk := scriptDisk script
  here := ["p"]
  clock := { time := "now", milliseconds := 0 }
  width := 80

theorem scriptSetting_tidy (script : String) : Tidy (scriptSetting script).disk := by
  refine .folder (by simp) (by simp; decide) fun e he => ?_
  rw [List.mem_singleton.mp he]
  refine .folder (by simp) (by simp; decide) fun e he => ?_
  rw [List.mem_singleton.mp he]
  exact .file _

theorem scriptSetting_linkFree (script : String) : LinkFree (scriptSetting script).disk := by
  refine .folder fun e he => ?_
  rw [List.mem_singleton.mp he]
  refine .folder fun e he => ?_
  rw [List.mem_singleton.mp he]
  exact .file _

theorem scriptSetting_folder (script : String) : (scriptSetting script).disk.at? ["p"] =
    some (.folder [("app.js", .file (Text.encode script.toList))]) := rfl

theorem scriptSetting_standing (script : String) : (scriptSetting script).Standing where
  folder := ⟨_, scriptSetting_folder script⟩
  proper := (by decide : ∀ n ∈ ["p"], Path.Proper n)

theorem scriptSetting_writable (script : String) :
    Writable (scriptSetting script).disk (reportPlace (scriptSetting script).here) where
  way := by
    intro p e hp ne there
    simp only [reportPlace, scriptSetting, List.cons_append, List.nil_append,
      List.prefix_cons_iff, List.prefix_nil] at hp
    rcases hp with rfl | ⟨q, rfl, rfl | ⟨q, rfl, rfl | ⟨q, rfl, rfl⟩⟩⟩
    · cases there
      rfl
    · cases there
      rfl
    · cases there
    · exact absurd rfl ne
  here := by
    intro e there
    cases there

/-- The walk takes scripts that are not too long. -/
theorem takes_script : ∃ q, Discovery.Query.make defaultOptions [] [] = .ok q ∧
    ∀ bytes : List UInt8, (bytes.length : Int) ≤ defaultOptions.maxFileSize →
      q.takesFile [] ["app.js"] bytes = true := by
  have query : (Discovery.Query.make defaultOptions [] []).map (fun q =>
      (q.takesFile [] ["app.js"] [], q.maxFileSize)) =
        .ok (true, defaultOptions.maxFileSize) := by
    decide +kernel
  obtain ⟨q, hq, taken⟩ := map_eq_ok.mp query
  obtain ⟨empty, size⟩ := Prod.mk.inj taken
  refine ⟨q, hq, fun bytes short => ?_⟩
  unfold Discovery.Query.takesFile at empty ⊢
  simp only [Bool.and_eq_true, decide_eq_true_eq] at empty ⊢
  exact ⟨empty.1, size ▸ short⟩

theorem walkEntries_nil {d : Disk} {q : Discovery.Query} {links : Nat} {place : Place}
    {lists : List Gitignore} {names : List String} :
    Discovery.walkEntries d q links place lists names [] = .ok [] := by
  rw [Discovery.walkEntries]

theorem scriptSetting_files
    (short : ((Text.encode script.toList).length : Int) ≤ defaultOptions.maxFileSize) :
    Discovery.files (scriptSetting script).disk ["p"] "/p" defaultOptions [] [] =
      .ok [appPath] := by
  obtain ⟨q, hq, takes⟩ := takes_script
  have folder := scriptSetting_folder script
  have unlisted : (scriptSetting script).disk.fileFrom? linkLimit ["p"] [Gitignore.fileName] =
      none := fileFrom?_missing 39 folder (by decide) rfl
  have settled : (scriptSetting script).disk.settle ["p"] (pathOf ["p"]) = some ["p"] :=
    settle_pathOf ["p"] folder (by decide)
  have walk : Discovery.walkEntries (scriptSetting script).disk q linkLimit ["p"] [] []
      [("app.js", .file (Text.encode script.toList))] = .ok [["app.js"]] := by
    refine Discovery.walkEntries_cons_ok.mpr ⟨[["app.js"]], [], ?_, walkEntries_nil, rfl⟩
    rw [Discovery.walkEntry_file]
    exact congrArg _ (if_pos (takes _ short))
  refine (Discovery.files_ok settled folder).mpr
    ⟨q, [], _, hq, Discovery.listsBelow_of_none unlisted, walk, ?_⟩
  cbv

theorem scriptSetting_unconfigured (script : String) :
    Config.file? (scriptSetting script).disk ["p"] (pathOf ["p"]) = none := by
  refine List.find?_eq_none.mpr fun name hname => ?_
  have atRoot : Config.pathAt (pathOf ["p"]) name = pathOf (["p"] ++ [name]) :=
    Config.pathAt_pathOf (by decide) hname
  have missing : (Disk.folder [("app.js", .file (Text.encode script.toList))]).child? name =
      none := by
    simp only [Config.fileNames, List.mem_cons, List.not_mem_nil, or_false] at hname
    rcases hname with rfl | rfl | rfl <;> rfl
  rw [isFileAt_eq, atRoot,
    bytes?_missing (Path.namesFrom_pathOf (Config.proper_place (by decide) hname) ["p"])
      (scriptSetting_folder script) (by decide)
      (Config.proper_fileNames name hname).not_climbing missing]
  exact Bool.false_ne_true

theorem scriptSetting_look
    (short : ((Text.encode script.toList).length : Int) ≤ defaultOptions.maxFileSize) :
    look (scriptSetting script) {} =
      .ok { config := {}, tag := none, options := defaultOptions, files := [appPath] } := by
  refine look_ok.mpr ⟨defaultOptions, ?_, ?_, ?_, rfl, scriptSetting_files short⟩
  · show Config.load (scriptSetting script).disk ["p"] (pathOf ["p"]) none = .ok {}
    rw [Config.load, scriptSetting_unconfigured]
  · rw [Choice.options_eq]
    rfl
  · unfold scriptSetting scriptDisk
    generalize Text.encode script.toList = bytes
    cbv

/-- The survey finds what the script holds. -/
theorem scriptSetting_surveyed (finds : Finds script defaultOptions findings) :
    ∃ found, survey (scriptSetting script) "." none {} = .ok found ∧ found.place = ["p"] ∧
      found.config = {} ∧ found.census.findings = findings ∧ found.census.scannedAt = "now" := by
  obtain ⟨census, hcensus, found⟩ := finds.ofFiles (scriptSetting script).clock none
  exact ⟨⟨["p"], {}, census⟩, (survey_ok (scriptSetting_standing script)).mpr
    ⟨_, scriptSetting_look finds.short, rfl, rfl, hcensus⟩, rfl, rfl, found,
    (Census.ofFiles_ok hcensus).2.1⟩

theorem byDefault : ({} : Scan).ByDefault {} where
  target := rfl
  unnamed := rfl
  directory := by decide
  formats := rfl

end EnvCensus.Command
