import EnvCensus.Proofs.Census.Growth

/-!
# Public variables

Whether a variable of a scan is public is decided by its name alone. Each
finding is public by its name, and merging keeps that, since it unites findings
of one name. The names that count begin with a prefix of the options or of the
framework of the scan.
-/

namespace EnvCensus

theorem Name.isPublic_iff {name : String} {prefixes : List String} :
    isPublic name prefixes = true ↔ ∃ p ∈ prefixes, p ≠ "" ∧ p.toList <+: name.toList := by
  simp only [isPublic, Bool.and_eq_true, List.any_eq_true, decide_eq_true_eq,
    List.isPrefixOf_iff_prefix]
  refine ⟨And.right, fun begins => ⟨?_, begins⟩⟩
  -- A name that begins with a prefix of some length has that length at least.
  obtain ⟨p, -, some, ⟨rest, split⟩⟩ := begins
  rintro rfl
  exact some (String.toList_inj.mp (List.append_eq_nil_iff.mp split).1)

namespace Finding

/-- The finding is public just when its name begins with one of the prefixes. -/
def PublicByName (prefixes : List String) (f : Finding) : Prop :=
  f.isPublic = Name.isPublic f.name prefixes

variable {prefixes : List String}

theorem StandsFor.publicByName {group : List Finding} {m : Finding} (h : StandsFor group m)
    (each : ∀ f ∈ group, f.PublicByName prefixes) : m.PublicByName prefixes := by
  have own : ∀ f ∈ group, f.isPublic = Name.isPublic m.name prefixes :=
    fun f hf => (each f hf).trans (congrArg (Name.isPublic · prefixes) (h.name hf))
  rcases h with rfl | ⟨-, united⟩
  · exact own m (List.mem_singleton_self m)
  · obtain ⟨g, hg, -⟩ := united.source
    rw [PublicByName, Bool.eq_iff_iff, united.isPublic]
    constructor
    · rintro ⟨f, hf, shown⟩
      exact own f hf ▸ shown
    · exact fun byName => ⟨g, hg, own g hg ▸ byName⟩

theorem Summary.publicByName {fs ms : List Finding} (h : Summary fs ms)
    (each : ∀ f ∈ fs, f.PublicByName prefixes) : ∀ m ∈ ms, m.PublicByName prefixes :=
  fun m hm => (h.stands m hm).publicByName fun f hf => each f (mem_named.mp hf).1

end Finding

namespace Census

open Provider (Shelf)

variable {d : Disk} {here : Disk.Place} {target : Target} {options : Options} {shelf : Shelf}
  {files : List String}

theorem collected_publicByName :
    ∀ f ∈ collected shelf Registry.standard files options,
      f.PublicByName options.publicPrefixes := by
  intro f hf
  obtain ⟨b, -, path, -, -, content, found, read, hf⟩ := mem_collected_standard hf
  exact (b.reading_orderly read f hf).isPublic

/-- A framework adds its prefixes to those of the options. -/
theorem mem_withFramework_publicPrefixes {framework : Option Framework} {p : String} :
    p ∈ (withFramework options framework).publicPrefixes ↔
      p ∈ options.publicPrefixes ∨ ∃ f, framework = some f ∧ p ∈ f.publicPrefixes := by
  cases framework with
  | none => simp [withFramework]
  | some f => simp [withFramework, mem_distinctBy_id]

/-- The tag of the framework of a scan: for a list of files the one that the options give, for a
directory that one or else the one detected there. -/
def tagOf (d : Disk) (here : Disk.Place) (options : Options) : Target → Option String
  | .directory path =>
    (d.settle here path).bind fun place => frameworkOf d here (Disk.pathOf place) options
  | .files _ => options.framework

theorem plan_tag {plan : Plan} (planned : Census.plan d here target options = .ok plan) :
    plan.tag = tagOf d here options target := by
  cases target with
  | files paths =>
    cases planned
    rfl
  | directory path =>
    obtain ⟨place, settled, tag, -⟩ := plan_directory planned
    rw [tag, tagOf, settled, Option.bind_some]

/-- A scan that finds what to scan has a result, and a variable of it is public just when its name
begins with a prefix of the options or of the framework, given or detected. -/
theorem scan_public_iff (clock : Clock) {plan : Plan}
    (planned : Census.plan d here target options = .ok plan) :
    ∃ c, scan d here clock Registry.standard target options = .ok c ∧
      c.framework = tagOf d here options target ∧
      ∀ f ∈ c.findings, f.isPublic = true ↔ ∃ p,
        (p ∈ options.publicPrefixes ∨ ∃ framework,
          c.framework.bind Framework.ofTag? = some framework ∧ p ∈ framework.publicPrefixes) ∧
        p ≠ "" ∧ p.toList <+: f.name.toList := by
  obtain ⟨c, scanned, tag, summary, -⟩ := scan_checked standard_checked clock planned
  refine ⟨c, scanned, tag.trans (plan_tag planned), fun f hf => ?_⟩
  have byName : f.PublicByName plan.options.publicPrefixes :=
    summary.publicByName collected_publicByName f hf
  rw [byName, Name.isPublic_iff, plan_options planned, tag]
  simp only [mem_withFramework_publicPrefixes]

/-- A declaration and a use of one variable are scanned for a framework, under a prefix of the
variable. -/
theorem scan_usedToken_public :
    let options : Options := { publicPrefixes := ["TOK"], framework := some "nextjs" }
    let plan : Plan := ⟨some "nextjs", withFramework options (some .nextjs), [tokenPath, scriptPath]⟩
    let target : Target := .files [tokenPath, scriptPath]
    Census.plan usedToken ["p"] target options = .ok plan ∧
      ∃ c, scan usedToken ["p"] ⟨"now", 0⟩ Registry.standard target options = .ok c ∧
        c.framework = tagOf usedToken ["p"] options target ∧
        ∀ f ∈ c.findings, f.isPublic = true ↔ ∃ p,
          (p ∈ options.publicPrefixes ∨ ∃ framework,
            c.framework.bind Framework.ofTag? = some framework ∧ p ∈ framework.publicPrefixes) ∧
          p ≠ "" ∧ p.toList <+: f.name.toList := by
  intro options plan target
  have planned : Census.plan usedToken ["p"] target options = .ok plan := plan_usedToken options
  exact ⟨planned, scan_public_iff ⟨"now", 0⟩ planned⟩

end Census

end EnvCensus
