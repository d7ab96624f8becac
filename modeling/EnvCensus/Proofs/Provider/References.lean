import EnvCensus.Proofs.Except
import EnvCensus.Proofs.Finding
import EnvCensus.Proofs.Shell.Grouping
import EnvCensus.Provider

/-!
# What is found in a file

Whatever a reading finds in the text of a file, every reference of it points
into that file, by its absolute path and by a line and a column from one on,
and its name alone decides whether it is public.
-/

namespace EnvCensus

/-- Every reference of the finding has the path. -/
def Finding.PointsTo (path : String) (f : Finding) : Prop := ∀ r ∈ f.files, r.path = path

/-- Whatever is found in a file points to it. -/
def Provider.Local (reading : Provider.Reading) : Prop :=
  ∀ {here content path options found}, reading here content path options = .ok found →
    ∀ f ∈ found, f.PointsTo (Path.absolute here path)

/-- The finding refers to places in the file at a path, and is public if its name begins as the
options say. -/
structure Finding.FoundIn (here path : String) (options : Options) (f : Finding) : Prop where
  places : ∀ r ∈ f.files, r.Into (Path.absolute here path)
  isPublic : f.isPublic = Name.isPublic f.name options.publicPrefixes

/-- Whatever is found in a file refers to it, and is public by its name. -/
def Provider.Orderly (reading : Provider.Reading) : Prop :=
  ∀ ⦃here content path options found⦄, reading here content path options = .ok found →
    ∀ f ∈ found, f.FoundIn here path options

theorem Provider.Orderly.local {reading : Provider.Reading} (h : Orderly reading) :
    Local reading :=
  fun read f hf r hr => ((h read f hf).places r hr).path

theorem Finding.foundIn_make {here path : String} {options : Options} {name : String}
    {origin : Finding.Origin} {refs : List FileRef} {required isPublic : Bool}
    {default : Option String} {notes : List String} {f : Finding}
    (places : ∀ r ∈ refs, r.Into (Path.absolute here path))
    (byName : isPublic = Name.isPublic name options.publicPrefixes)
    (h : Finding.make name origin refs required default isPublic notes = .ok f) :
    f.FoundIn here path options := by
  obtain ⟨source, rfl⟩ := Finding.make_cases h
  exact ⟨places, byName⟩

/-- A finding with one reference is found where the reference points. -/
theorem Finding.foundIn_make_one {here path : String} {options : Options} {line column : Int}
    {context hint : Option String} {r : FileRef} {name : String} {origin : Finding.Origin}
    {required : Bool} {default : Option String} {notes : List String} {f : Finding}
    (ref : FileRef.make here path line column context hint = .ok r)
    (h : Finding.make name origin [r] required default
      (Name.isPublic name options.publicPrefixes) notes = .ok f) :
    f.FoundIn here path options :=
  Finding.foundIn_make (List.forall_mem_singleton.mpr (FileRef.make_into ref)) rfl h

theorem Dotenv.scan_orderly : Provider.Orderly Dotenv.scan := by
  intro here content path options found h
  refine all_of_mapM h fun e _ f hf => ?_
  obtain ⟨r, hr, hf⟩ := bind_eq_ok.mp hf
  exact Finding.foundIn_make_one (mapError_eq_ok.mp hr) (mapError_eq_ok.mp hf)

namespace Script

theorem findingOf_foundIn {here path : String} {options : Options} {key : Source × String}
    {group : List Sighting} {f : Finding} (h : findingOf here path options key group = .ok f) :
    f.FoundIn here path options := by
  obtain ⟨refs, hrefs, h⟩ := bind_eq_ok.mp h
  refine Finding.foundIn_make ?_ rfl (mapError_eq_ok.mp h)
  exact all_of_mapM hrefs fun s _ r hr => FileRef.make_into (mapError_eq_ok.mp hr)

theorem scanSource_foundIn [Parsers] {here path : String} {options : Options} {d : Dialect}
    {source : List Char} {found : List Finding}
    (h : scanSource here path options d source = .ok found) :
    ∀ f ∈ found, f.FoundIn here path options := by
  unfold scanSource at h
  split at h
  · cases h
  · obtain ⟨seen, -, h⟩ := bind_eq_ok.mp h
    exact all_of_mapM h fun key _ f hf => findingOf_foundIn hf

theorem scan_orderly [Parsers] : Provider.Orderly Script.scan := by
  intro here content path options found h
  unfold Script.scan at h
  simp only at h
  split at h
  · split at h
    · cases h
      simp
    · exact scanSource_foundIn h
  · exact scanSource_foundIn h

end Script

namespace Shell

theorem scan_orderly : Provider.Orderly Shell.scan := by
  intro here content path options found h f hf
  obtain ⟨u, -, rfl⟩ := mem_scan h hf
  refine ⟨fun r hr => ?_, rfl⟩
  obtain ⟨v, hv, rfl⟩ := List.mem_map.mp hr
  have placed := uses_placed content v (List.mem_of_mem_filter hv)
  exact ⟨rfl, placed.line, placed.column⟩

end Shell

namespace Manifest

variable {here path : String} {options : Options}

theorem annotate_foundIn {notes : List String} {found : List Finding}
    (h : ∀ f ∈ found, f.FoundIn here path options) :
    ∀ f ∈ annotate notes found, f.FoundIn here path options := by
  cases found with
  | nil => simp [annotate]
  | cons f rest =>
    rw [List.forall_mem_cons] at h
    exact List.forall_mem_cons.mpr ⟨⟨h.1.places, h.1.isPublic⟩, h.2⟩

theorem mapM_findingOf_foundIn {source : Source} {required : Bool} {context : String}
    {hint : Option String} {ds : List (Declaration × Nat)} {found : List Finding}
    (h : ds.mapM (findingOf here path options source required context hint) = .ok found) :
    ∀ f ∈ found, f.FoundIn here path options := by
  refine all_of_mapM h fun d _ f hf => ?_
  obtain ⟨r, hr, hf⟩ := bind_eq_ok.mp hf
  exact Finding.foundIn_make_one (mapError_eq_ok.mp hr) (mapError_eq_ok.mp hf)

theorem flatten_foundIn {parts : List (List Finding)}
    (h : ∀ part ∈ parts, ∀ f ∈ part, f.FoundIn here path options) :
    ∀ f ∈ parts.flatten, f.FoundIn here path options := by
  intro f hf
  obtain ⟨part, hpart, hf⟩ := List.mem_flatten.mp hf
  exact h part hpart f hf

theorem serviceFindings_foundIn {s : Value × Value} {found : List Finding}
    (h : serviceFindings here path options s = .ok found) :
    ∀ f ∈ found, f.FoundIn here path options := by
  unfold serviceFindings at h
  split at h
  · cases h
    simp
  · obtain ⟨-, -, h⟩ := bind_eq_ok.mp h
    obtain ⟨placed, hplaced, h⟩ := bind_eq_ok.mp h
    cases h
    exact annotate_foundIn (mapM_findingOf_foundIn hplaced)

theorem blockFindings_foundIn {context : String} {hint : Option String}
    {env : List (Value × Value)} {found : List Finding}
    (h : blockFindings here path options context hint env = .ok found) :
    ∀ f ∈ found, f.FoundIn here path options := by
  obtain ⟨-, -, h⟩ := bind_eq_ok.mp h
  exact mapM_findingOf_foundIn h

theorem jobFindings_foundIn {j : Value × Value} {found : List Finding}
    (h : jobFindings here path options j = .ok found) :
    ∀ f ∈ found, f.FoundIn here path options := by
  unfold jobFindings at h
  split at h
  · cases h
    simp
  · obtain ⟨-, -, h⟩ := bind_eq_ok.mp h
    obtain ⟨own, hown, h⟩ := bind_eq_ok.mp h
    obtain ⟨parts, hparts, h⟩ := bind_eq_ok.mp h
    cases h
    refine List.forall_mem_append.mpr ⟨blockFindings_foundIn hown, flatten_foundIn ?_⟩
    refine all_of_mapM hparts fun step _ part hpart => ?_
    obtain ⟨-, -, hpart⟩ := bind_eq_ok.mp hpart
    exact blockFindings_foundIn hpart

theorem findings_foundIn {m : Manifest} {found : List Finding}
    (h : findings here path options m = .ok found) : ∀ f ∈ found, f.FoundIn here path options := by
  unfold findings at h
  split at h
  · obtain ⟨parts, hparts, h⟩ := bind_eq_ok.mp h
    cases h
    exact flatten_foundIn (all_of_mapM hparts fun s _ part hpart => serviceFindings_foundIn hpart)
  · obtain ⟨own, hown, h⟩ := bind_eq_ok.mp h
    obtain ⟨parts, hparts, h⟩ := bind_eq_ok.mp h
    cases h
    refine List.forall_mem_append.mpr ⟨blockFindings_foundIn hown, flatten_foundIn ?_⟩
    exact all_of_mapM hparts fun j _ part hpart => jobFindings_foundIn hpart
  · cases h
    simp

theorem scan_orderly [Parsers] : Provider.Orderly Manifest.scan := by
  intro here content path options found h
  obtain ⟨document, -, h⟩ := bind_eq_ok.mp h
  exact findings_foundIn h

end Manifest

end EnvCensus
