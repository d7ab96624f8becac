import EnvCensus.Proofs.Census.Consistency

/-!
# Names in a scan

The check of names lets pass the exact names, and besides them the exact names
with a line feed after them; so a scan can have a name with a line feed at its
end, and no other name that is not exact. Only scripts and manifests give such
a name, since they can quote it.
-/

namespace EnvCensus

theorem Finding.make_ok_iff {name : String} {source : Source} {files : List FileRef}
    {required isPublic : Bool} {default : Option String} {notes : List String} :
    (∃ f, make name (.source source) files required default isPublic notes = .ok f) ↔
      files ≠ [] ∧ Name.isValid name = true := by
  constructor
  · rintro ⟨f, made⟩
    have valid := make_valid made
    obtain ⟨_, rfl⟩ := make_cases made
    exact valid
  · rintro ⟨nonempty, valid⟩
    exact ⟨_, make_eq_ok nonempty valid⟩

/-- The check of names is exact on every text but a name with a line feed after it. -/
theorem Name.isValid_exact_iff {s : String} :
    (isValid s = true ↔ Exact s) ↔ ∀ t, Exact t → s ≠ t ++ "\n" := by
  rw [isValid_iff_exact]
  constructor
  · rintro agree t exact rfl
    exact not_exact_feed t (agree.mp (Or.inr ⟨t, exact, rfl⟩))
  · intro other
    refine ⟨?_, Or.inl⟩
    rintro (exact | ⟨t, exact, same⟩)
    · exact exact
    · exact absurd same (other t exact)

/-! ### Exact names -/

theorem Dotenv.scan_exact {here content path : String} {options : Options} {found : List Finding}
    (h : scan here content path options = .ok found) : ∀ f ∈ found, Name.Exact f.name := by
  refine all_of_mapM h fun e he f hf => ?_
  obtain ⟨ref, -, hf⟩ := bind_eq_ok.mp hf
  obtain ⟨source, rfl⟩ := Finding.make_cases (mapError_eq_ok.mp hf)
  exact (parseLines_named e he).1

theorem Shell.scan_exact {here content path : String} {options : Options} {found : List Finding}
    (h : scan here content path options = .ok found) : ∀ f ∈ found, Name.Exact f.name := by
  intro f hf
  obtain ⟨u, hu, rfl⟩ := mem_scan h hf
  exact (uses_placed content u hu).name

/-- Declaration files and shell scripts cannot quote a name. -/
theorem Provider.BuiltIn.reading_exact {b : Provider.BuiltIn} {here content path : String}
    {options : Options} {found : List Finding}
    (h : b.reading here content path options = .ok found) :
    (b = .script ∨ b = .manifest) ∨ ∀ f ∈ found, Name.Exact f.name := by
  cases b with
  | script => exact Or.inl (Or.inl rfl)
  | manifest => exact Or.inl (Or.inr rfl)
  | dotenv => exact Or.inr (Dotenv.scan_exact h)
  | shell => exact Or.inr (Shell.scan_exact h)

namespace Census

open Provider (BuiltIn)

variable {d : Disk} {here : Disk.Place} {target : Target} {options : Options}

/-- What the check of names and the constructor of findings accept, and which names a scan has:
whatever its providers, exact names and exact names with a line feed after them. With the built-in
providers a name that is not exact comes from a script or a manifest. -/
theorem scan_names (s : String) (source : Source) (refs : List FileRef) (required isPublic : Bool)
    (default : Option String) (notes : List String) (clock : Clock) {plan : Plan}
    (planned : Census.plan d here target options = .ok plan) :
    (Name.isValid s = true ↔ Name.Exact s ∨ ∃ t, Name.Exact t ∧ s = t ++ "\n") ∧
    ((Name.isValid s = true ↔ Name.Exact s) ↔ ∀ t, Name.Exact t → s ≠ t ++ "\n") ∧
    ((∃ f, Finding.make s (.source source) refs required default isPublic notes = .ok f) ↔
      refs ≠ [] ∧ Name.isValid s = true) ∧
    (∀ registry : Registry, (∀ p ∈ registry.providers, p.Checked) →
      ∃ c, scan d here clock registry target options = .ok c ∧
        ∀ f ∈ c.findings, Name.Exact f.name ∨ ∃ t, Name.Exact t ∧ f.name = t ++ "\n") ∧
    ∃ c, scan d here clock Registry.standard target options = .ok c ∧
      ∀ f ∈ c.findings, Name.Exact f.name ∨ ∃ b : BuiltIn, (b = .script ∨ b = .manifest) ∧
        b.provider ∈ Registry.standard.enabled options ∧
        ∃ path ∈ plan.files, b.provider.handles path = true := by
  refine ⟨Name.isValid_iff_exact, Name.isValid_exact_iff, Finding.make_ok_iff, ?_, ?_⟩
  · intro registry checked
    obtain ⟨c, scanned, -, -, valid⟩ := scan_checked checked clock planned
    exact ⟨c, scanned, fun f hf => Name.isValid_iff_exact.mp (valid f hf).2⟩
  · obtain ⟨c, scanned, -, summary, -⟩ := scan_checked standard_checked clock planned
    refine ⟨c, scanned, fun f hf => ?_⟩
    obtain ⟨g, hg, same⟩ := List.mem_map.mp ((summary.names f.name).mp (List.mem_map_of_mem hf))
    obtain ⟨b, enabled, path, mem, handled, content, found, read, hg⟩ := mem_collected_standard hg
    rw [enabled_plan planned] at enabled
    rcases BuiltIn.reading_exact read with quoting | exact
    · exact Or.inr ⟨b, quoting, enabled, path, mem, handled⟩
    · exact Or.inl (same ▸ exact g hg)

/-- The text of a script that quotes a name with a line feed after it. -/
def quotingScript : String := "process.env[\"FOO\\n\"];\n"

/-- A disk with the script. -/
def quotedFeed : Disk := .folder [("p", .folder [("a.js", .file (Text.encode quotingScript.toList))])]

/-- The path of the script. -/
def quotedPath : String := Disk.pathOf ["p", "a.js"]

theorem plan_quotedPath : Census.plan quotedFeed ["p"] (.files [quotedPath]) {} =
    .ok ⟨none, {}, [quotedPath]⟩ :=
  plan_file (Path.absolute_pathOf (by decide))

/-- The script on a shelf. -/
def quotingShelf : Provider.Shelf where
  here := "/p"
  text _ := some quotingScript

theorem quotingScript_collected :
    Provider.script.collect quotingShelf [quotedPath] {} =
      .ok { findings := [⟨"FOO\n", .process, [⟨quotedPath, 1, 1, none, none⟩], true, none, false,
              []⟩]
            filesScanned := 1 } ∧
      Disk.scannedText? (Text.encode quotingScript.toList) ({} : Options).maxFileSize =
        some quotingScript := by
  decide +kernel

/-- The script is scanned. -/
theorem scan_quotedFeed_names :
    let plan : Plan := ⟨none, {}, [quotedPath]⟩
    let target : Target := .files [quotedPath]
    let refs : List FileRef := [⟨quotedPath, 1, 1, none, none⟩]
    Census.plan quotedFeed ["p"] target {} = .ok plan ∧
    (Name.isValid "FOO\n" = true ↔ Name.Exact "FOO\n" ∨ ∃ t, Name.Exact t ∧ "FOO\n" = t ++ "\n") ∧
    ((Name.isValid "FOO\n" = true ↔ Name.Exact "FOO\n") ↔
      ∀ t, Name.Exact t → "FOO\n" ≠ t ++ "\n") ∧
    ((∃ f, Finding.make "FOO\n" (.source .process) refs true none false [] = .ok f) ↔
      refs ≠ [] ∧ Name.isValid "FOO\n" = true) ∧
    (∀ registry : Registry, (∀ p ∈ registry.providers, p.Checked) →
      ∃ c, scan quotedFeed ["p"] ⟨"now", 0⟩ registry target {} = .ok c ∧
        ∀ f ∈ c.findings, Name.Exact f.name ∨ ∃ t, Name.Exact t ∧ f.name = t ++ "\n") ∧
    ∃ c, scan quotedFeed ["p"] ⟨"now", 0⟩ Registry.standard target {} = .ok c ∧
      ∀ f ∈ c.findings, Name.Exact f.name ∨ ∃ b : BuiltIn, (b = .script ∨ b = .manifest) ∧
        b.provider ∈ Registry.standard.enabled {} ∧
        ∃ path ∈ plan.files, b.provider.handles path = true := by
  intro plan target refs
  exact ⟨plan_quotedPath, scan_names "FOO\n" .process refs true false none [] ⟨"now", 0⟩
    plan_quotedPath⟩

/-- A name with a line feed after it passes the check and the constructor of findings, and a scan
has it, though it is not exact. -/
theorem quotedFeed_named :
    Name.isValid "FOO\n" = true ∧
    (∃ f, Finding.make "FOO\n" (.source .process) [⟨quotedPath, 1, 1, none, none⟩] true none false
      [] = .ok f) ∧
    ¬ Name.Exact "FOO\n" ∧
    ∃ c, scan quotedFeed ["p"] ⟨"now", 0⟩ Registry.standard (.files [quotedPath]) {} = .ok c ∧
      "FOO\n" ∈ c.findings.map (·.name) := by
  refine ⟨by decide, ⟨_, rfl⟩, Name.not_exact_feed "FOO", ?_⟩
  obtain ⟨c, scanned, -, summary, -⟩ := scan_checked standard_checked ⟨"now", 0⟩ plan_quotedPath
  refine ⟨c, scanned, (summary.names _).mpr ?_⟩
  obtain ⟨collected, read⟩ := quotingScript_collected
  have there : quotedFeed.bytes? ["p"] quotedPath = some (Text.encode quotingScript.toList) :=
    Disk.bytes?_pathOf rfl (by decide) ["p"]
  have texts : ∀ p ∈ [quotedPath], (shelfOf quotedFeed ["p"] {}).text p = quotingShelf.text p := by
    intro p hp
    rw [List.mem_singleton.mp hp]
    exact (shelfOf_text there {}).trans read
  have enabled : BuiltIn.script.provider ∈ Registry.standard.enabled {} :=
    List.mem_filter.mpr ⟨List.mem_cons_self, rfl⟩
  have here : (shelfOf quotedFeed ["p"] {}).here = quotingShelf.here := rfl
  have collected := (BuiltIn.script.collect_congr {} here texts).trans collected
  exact List.mem_map_of_mem (mem_collected.mpr ⟨_, enabled, _, collected, List.mem_cons_self⟩)

end Census

end EnvCensus
