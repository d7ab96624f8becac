import EnvCensus.Proofs.Census.Consistency
import EnvCensus.Proofs.Census.OneScript
import EnvCensus.Proofs.Report.EnvExample

/-!
# What the report on a scan declares

The example declaration file of a scan declares every variable that has an
exact name, in order. It declares nothing else just when no text that it takes
over from the scanned files goes on with a declaration, and a default in a
script can do that.
-/

namespace EnvCensus.Census

open Dotenv Report.EnvExample

variable {d : Disk} {here : Disk.Place} {clock : Clock} {target : Target} {options : Options}

/-- The variables of a scan have different names, and those with exact names are read in its report
in order. They are all that is read there just when their names are exact and neither the time of the
scan nor anything taken over from a finding declares a variable on a line of its own. -/
theorem scan_declares_iff {registry : Registry} (checked : ∀ p ∈ registry.providers, p.Checked)
    {c : Census} (scanned : scan d here clock registry target options = .ok c)
    (root : Option Disk.Place) :
    ((inReportOrder c).map (·.name)).Nodup ∧
    (((inReportOrder c).filter fun f => Name.Exact f.name).map (·.name)).Sublist
      ((parse (text root c)).map (·.name)) ∧
    ((parse (text root c)).map (·.name) = (inReportOrder c).map (·.name) ↔
      Quiet clock.time ∧ ∀ f ∈ c.findings, DeclaresItself root f) := by
  obtain ⟨nodup, -, time, -⟩ := scan_ok checked scanned
  have reordered : ((inReportOrder c).map (·.name)).Perm (c.findings.map (·.name)) :=
    (List.filter_append_perm _ _).map _
  refine ⟨reordered.nodup_iff.mpr nodup, exact_names_sublist root c, ?_⟩
  rw [← time]
  exact names_text_iff root c

/-! ### A default of two lines -/

/-- A script with a default whose second line is a declaration. -/
def twoLineScript : String := "const a = process.env.A || \"x\\nEVIL=1\";\n"

/-- What is found in the script. -/
def twoLineFinding : Finding where
  name := "A"
  source := .process
  files := [⟨appPath, 1, 11, none, none⟩]
  required := false
  defaultValue := some "x\nEVIL=1"

theorem finds_twoLineScript : Finds twoLineScript {} [twoLineFinding] :=
  ⟨by decide +kernel, by decide +kernel⟩

/-- The scan of the script declares one variable just when its default declares nothing. -/
theorem scan_twoLineScript_declares :
    (∀ p ∈ Registry.standard.providers, p.Checked) ∧
    ∃ c, scan (scriptDisk twoLineScript) ["p"] ⟨"now", 0⟩ Registry.standard (.files [appPath]) {} =
        .ok c ∧
      ((inReportOrder c).map (·.name)).Nodup ∧
      (((inReportOrder c).filter fun f => Name.Exact f.name).map (·.name)).Sublist
        ((parse (text (some ["p"]) c)).map (·.name)) ∧
      ((parse (text (some ["p"]) c)).map (·.name) = (inReportOrder c).map (·.name) ↔
        Quiet "now" ∧ ∀ f ∈ c.findings, DeclaresItself (some ["p"]) f) := by
  obtain ⟨c, scanned, -⟩ := finds_twoLineScript.scan ⟨"now", 0⟩
  exact ⟨standard_checked, c, scanned, scan_declares_iff standard_checked scanned (some ["p"])⟩

/-- The report on the scan of the script is read as the declaration of a variable that the scan has
not found: the default goes on with it on a line of its own. -/
theorem twoLineScript_declares_another :
    ∃ c, scan (scriptDisk twoLineScript) ["p"] ⟨"now", 0⟩ Registry.standard (.files [appPath]) {} =
        .ok c ∧
      (inReportOrder c).map (·.name) = ["A"] ∧
      (parse (text (some ["p"]) c)).map (·.name) = ["A", "EVIL"] := by
  obtain ⟨c, scanned, found⟩ := finds_twoLineScript.scan ⟨"now", 0⟩
  obtain ⟨-, -, time, -⟩ := scan_ok standard_checked scanned
  have declared : (parse (text (some ["p"]) ⟨[twoLineFinding], {}, "now", none⟩)).map (·.name) =
      ["A", "EVIL"] := by
    decide +kernel
  have same : text (some ["p"]) c = text (some ["p"]) ⟨[twoLineFinding], {}, "now", none⟩ := by
    simp only [text, found, time]
  refine ⟨c, scanned, ?_, ?_⟩
  · rw [inReportOrder, found]
    decide
  · rw [same]
    exact declared

end EnvCensus.Census
