import EnvCensus.Proofs.Census.Failures
import EnvCensus.Proofs.Disk.Route

/-!
# A project of one script

What a scan finds in a project that holds nothing but a script is what is
collected from the text of the script.
-/

namespace EnvCensus.Census

open Provider (Shelf)

/-- A disk on which a project has nothing but a script. -/
def scriptDisk (script : String) : Disk :=
  .folder [("p", .folder [("app.js", .file (Text.encode script.toList))])]

/-- The path of the script. -/
def appPath : String := Disk.pathOf ["p", "app.js"]

theorem appPath_absolute (here : String) : Path.absolute here appPath = appPath :=
  Path.absolute_pathOf (by decide) here

/-- A shelf with the text of the script in every file. -/
def textShelf (script : String) : Shelf where
  here := "/p"
  text _ := some script

/-- The script can be read, and these findings are made of what it holds. -/
structure Finds (script : String) (options : Options) (findings : List Finding) : Prop where
  read : Disk.scannedText? (Text.encode script.toList) options.maxFileSize = some script
  merged : Finding.mergeAll (earlier (textShelf script) options [appPath] [] ++
    later (textShelf script) options [appPath] []) = .ok findings

variable {script : String} {options : Options} {findings : List Finding}

theorem Finds.short (finds : Finds script options findings) :
    ((Text.encode script.toList).length : Int) ≤ options.maxFileSize := by
  by_contra long
  have read := finds.read
  rw [Disk.scannedText?, if_pos (by omega)] at read
  cases read

/-- The file of the script is scanned as its text. -/
theorem Finds.ofFiles (finds : Finds script options findings) (clock : Clock)
    (tag : Option String) :
    ∃ c, ofFiles (scriptDisk script) ["p"] clock Registry.standard tag options [appPath] =
      .ok c ∧ c.findings = findings := by
  refine ofFiles_of_merged clock tag ?_
  have there : (scriptDisk script).bytes? ["p"] appPath = some (Text.encode script.toList) :=
    Disk.bytes?_pathOf rfl (by decide) ["p"]
  have texts : ∀ p ∈ [appPath],
      (shelfOf (scriptDisk script) ["p"] options).text p = (textShelf script).text p := by
    intro p hp
    rw [List.mem_singleton.mp hp]
    exact (shelfOf_text there options).trans finds.read
  have here : (shelfOf (scriptDisk script) ["p"] options).here = (textShelf script).here := rfl
  rw [collected_of_texts here texts]
  exact finds.merged

theorem Finds.scan (finds : Finds script {} findings) (clock : Clock) :
    ∃ c, scan (scriptDisk script) ["p"] clock Registry.standard (.files [appPath]) {} = .ok c ∧
      c.findings = findings := by
  obtain ⟨c, scanned, found⟩ := finds.ofFiles clock none
  refine ⟨c, ?_, found⟩
  rw [Census.scan, plan_file appPath_absolute]
  exact scanned

end EnvCensus.Census
