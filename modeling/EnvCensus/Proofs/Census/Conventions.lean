import EnvCensus.Proofs.Census.Consistency
import EnvCensus.Proofs.Discovery

/-!
# Scans keep the conventions

Findings and references come from constructors that refuse what breaks the
conventions of findings, and a merge refuses what cannot be merged. No reading
of a built-in provider is ever refused, whatever the text of the file, and
neither is the merge of what they find, so no scan fails by a breach.
-/

namespace EnvCensus

/-- The failure is the refusal of a finding, of a reference or of a merge. -/
def Failure.IsBreach : Failure → Prop
  | breach _ => True
  | outOfRange _ => True
  | _ => False

theorem Failure.not_isBreach_of_isParseFailure {e : Failure} (h : e.isParseFailure = true) :
    ¬ e.IsBreach := by
  cases e <;> simp_all [isParseFailure, IsBreach]

/-- The finding keeps the conventions: a valid name, a source that has its rank, and references,
all of them counted from one. -/
structure Finding.Sound (f : Finding) : Prop where
  name : Name.isValid f.name = true
  source : Source.rankOfTag f.source.tag = .ok f.source.rank
  files : f.files ≠ []
  counted : ∀ r ∈ f.files, 1 ≤ r.line ∧ 1 ≤ r.column

/-- The computation is refused nothing, and the findings of its result keep the conventions. -/
def KeepsConventions {α : Type} (findings : α → List Finding) (x : Except Failure α) : Prop :=
  Ends (fun e => ¬ e.IsBreach) (fun a => ∀ f ∈ findings a, f.Sound) x

theorem Source.rankOfTag_tag (s : Source) : rankOfTag s.tag = .ok s.rank := by
  cases s <;> rfl

theorem Finding.FoundIn.sound {here path : String} {options : Options} {f : Finding}
    (place : f.FoundIn here path options) (valid : f.Valid) : f.Sound where
  name := valid.2
  source := Source.rankOfTag_tag f.source
  files := valid.1
  counted r hr := ⟨(place.places r hr).line, (place.places r hr).column⟩

/-- Sound findings can be merged, to sound ones. -/
theorem Finding.mergeAll_sound {fs : List Finding} (sound : ∀ f ∈ fs, f.Sound) :
    ∃ ms, mergeAll fs = .ok ms ∧ ∀ m ∈ ms, m.Sound := by
  have valid : ∀ f ∈ fs, f.Valid := fun f hf => ⟨(sound f hf).files, (sound f hf).name⟩
  obtain ⟨ms, merged, -, validMs⟩ := mergeAll_summary valid
  refine ⟨ms, merged, fun m hm => ⟨(validMs m hm).2, Source.rankOfTag_tag _, (validMs m hm).1, ?_⟩⟩
  intro r hr
  have mentioned := (mergeAll_mentions merged r.key).mp (mentions_iff.mpr ⟨m, hm, r, hr, rfl⟩)
  obtain ⟨f, hf, r', hr', same⟩ := mentions_iff.mp mentioned
  obtain ⟨-, line, column⟩ : r'.path = r.path ∧ r'.line = r.line ∧ r'.column = r.column := by
    simpa [FileRef.key] using same
  exact line ▸ column ▸ (sound f hf).counted r' hr'

/-! ### Readings -/

theorem Manifest.findings_keep (here path : String) (options : Options) (m : Manifest) :
    KeepsConventions id (Manifest.findings here path options m) := by
  have ends := Manifest.findings_writes here path options m
  cases read : Manifest.findings here path options m with
  | ok found =>
    refine .ok fun f hf => ?_
    exact (Manifest.findings_foundIn read f hf).sound ((Ends.result ends read).2 f hf)
  | error e =>
    obtain ⟨⟨text, rfl⟩, -⟩ := Ends.failure ends read
    exact .error id

namespace Provider.BuiltIn

/-- What a reading fails by is no breach, but a text that cannot be parsed or a faulty one. -/
theorem reading_failure (b : BuiltIn) {here content path : String} {options : Options}
    {e : Failure} (h : b.reading here content path options = .error e) : ¬ e.IsBreach := by
  cases b with
  | script =>
    obtain ⟨fault, calm⟩ := (Script.scan_ends here content path options).failure h
    by_cases faulty : Script.Faulty content path
    · obtain ⟨-, -, rfl⟩ := fault faulty
      exact id
    · exact Failure.not_isBreach_of_isParseFailure (calm faulty)
  | dotenv =>
    obtain ⟨found, read⟩ := Dotenv.scan_total here content path options
    cases read.symm.trans h
  | manifest =>
    obtain ⟨fault, calm⟩ := (Manifest.scan_ends here content path options).failure h
    by_cases faulty : Manifest.Faulty content path
    · obtain ⟨-, rfl⟩ := fault faulty
      exact id
    · exact Failure.not_isBreach_of_isParseFailure (calm faulty)
  | shell => exact ((Shell.scan_ends here content path options).failure h).elim

theorem reading_keeps (b : BuiltIn) (here content path : String) (options : Options) :
    KeepsConventions id (b.reading here content path options) := by
  cases read : b.reading here content path options with
  | ok found =>
    refine .ok fun f hf => ?_
    have ends := (b.reading_ends here content path options).result read
    exact (b.reading_orderly read f hf).sound (ends.2 f hf)
  | error e => exact .error (b.reading_failure read)

end Provider.BuiltIn

/-! ### Scans -/

namespace Census

open Provider (Shelf BuiltIn)

theorem collected_sound {shelf : Shelf} {files : List String} {options : Options} :
    ∀ f ∈ collected shelf Registry.standard files options, f.Sound := by
  intro f hf
  obtain ⟨b, -, path, -, -, content, found, read, hf⟩ := mem_collected_standard hf
  exact (b.reading_keeps shelf.here content path options).result read f hf

theorem plan_ends (d : Disk) (here : Disk.Place) (target : Target) (options : Options) :
    Ends (fun e => ¬ e.IsBreach) (fun _ => True) (plan d here target options) := by
  cases target with
  | files paths => exact .ok trivial
  | directory path =>
    unfold plan
    simp only
    split
    · exact .error id
    · refine Ends.bind ((Discovery.files_ends ..).imp (fun e stopped => ?_) fun _ => id)
        fun files _ => .ok trivial
      obtain rfl | ⟨missing, rfl⟩ | ⟨fault, rfl⟩ := stopped <;> exact id

theorem scan_keeps (d : Disk) (here : Disk.Place) (clock : Clock) (target : Target)
    (options : Options) :
    KeepsConventions Census.findings (scan d here clock Registry.standard target options) := by
  refine (plan_ends d here target options).bind fun plan _ => ?_
  obtain ⟨findings, merged, sound⟩ := Finding.mergeAll_sound
    (collected_sound : ∀ f ∈ collected (shelfOf d here plan.options) Registry.standard plan.files
      plan.options, f.Sound)
  obtain ⟨c, scanned, rfl⟩ := ofFiles_of_merged clock plan.tag merged
  rw [scanned]
  exact .ok sound

/-- Whatever is read and scanned, the built-in providers are refused no finding and no reference,
also not on a document of any shape, which is one of three kinds of manifest; what they find is
merged, and no scan with them fails by a breach of the conventions. -/
theorem scan_without_breach (d : Disk) (here : Disk.Place) (clock : Clock) (target : Target)
    (options : Options) :
    (∀ (b : BuiltIn) (root content path : String),
      KeepsConventions id (b.reading root content path options)) ∧
    (∀ (root path : String) (document : Value),
      ((∃ services, Manifest.decode path document = .compose services) ∨
        (∃ env jobs, Manifest.decode path document = .workflow env jobs) ∨
        ∃ reason, Manifest.decode path document = .unrecognized reason) ∧
      KeepsConventions id
        (Manifest.findings root path options (Manifest.decode path document))) ∧
    (∀ (shelf : Shelf) (files : List String), ∃ merged,
      Finding.mergeAll (collected shelf Registry.standard files options) = .ok merged ∧
        ∀ f ∈ merged, f.Sound) ∧
    KeepsConventions Census.findings (scan d here clock Registry.standard target options) := by
  refine ⟨fun b root content path => b.reading_keeps root content path options, ?_,
    fun shelf files => Finding.mergeAll_sound collected_sound,
    scan_keeps d here clock target options⟩
  intro root path document
  refine ⟨?_, Manifest.findings_keep root path options _⟩
  cases Manifest.decode path document with
  | compose services => exact Or.inl ⟨services, rfl⟩
  | workflow env jobs => exact Or.inr (Or.inl ⟨env, jobs, rfl⟩)
  | unrecognized reason => exact Or.inr (Or.inr ⟨reason, rfl⟩)

end Census

end EnvCensus
