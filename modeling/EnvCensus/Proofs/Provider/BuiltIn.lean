import EnvCensus.Proofs.Manifest
import EnvCensus.Proofs.Provider.Collection
import EnvCensus.Proofs.Script
import EnvCensus.Proofs.Shell.Grouping
import EnvCensus.Provider

/-!
# The built-in providers

All of them read file by file, and each reading ends in one of three ways: it
gives findings with names and references, it cannot parse the file, or the file
is faulty. Only scripts and manifests can be faulty. So it is with any parsers:
which texts can be parsed, and which are faulty, follows from what they give.
-/

namespace EnvCensus.Provider

/-- The kinds of built-in providers. -/
inductive BuiltIn where
  | script
  | dotenv
  | manifest
  | shell
  deriving DecidableEq, Repr

namespace BuiltIn

/-- Every kind, in the order in which the findings are joined. -/
def all : List BuiltIn := [script, dotenv, manifest, shell]

variable [Parsers]

def provider : BuiltIn → Provider
  | script => Provider.script
  | dotenv => Provider.dotenv
  | manifest => Provider.manifest
  | shell => Provider.shell

/-- How the provider reads one file. -/
def reading : BuiltIn → Reading
  | script => Script.scan
  | dotenv => Dotenv.scan
  | manifest => Manifest.scan
  | shell => Shell.scan

/-- The texts and paths of files that the provider can parse and yet not read. -/
def Faulty : BuiltIn → String → String → Prop
  | script => Script.Faulty
  | dotenv => fun _ _ => False
  | manifest => Manifest.Faulty
  | shell => fun _ _ => False

theorem providers_all : all.map provider = builtIn := rfl

theorem exists_of_mem {p : Provider} (h : p ∈ builtIn) : ∃ b : BuiltIn, b.provider = p := by
  rw [← providers_all] at h
  obtain ⟨b, -, e⟩ := List.mem_map.mp h
  exact ⟨b, e⟩

variable {shelf : Shelf} {options : Options} {files : List String} {path : String}

theorem collect_eq (b : BuiltIn) (shelf : Shelf) (files : List String) (options : Options) :
    b.provider.collect shelf files options =
      collectAll b.reading shelf options (files.filter b.provider.handles) := by
  cases b <;> simp only [provider, reading, Provider.script, Provider.dotenv, Provider.manifest,
    Provider.shell, ofReading]

/-- A collection depends on the texts of its files. -/
theorem collect_congr (b : BuiltIn) {shelf' : Shelf} (options : Options)
    (here : shelf'.here = shelf.here) (texts : ∀ p ∈ files, shelf'.text p = shelf.text p) :
    b.provider.collect shelf' files options = b.provider.collect shelf files options := by
  rw [collect_eq, collect_eq]
  exact collectAll_congr here fun p hp => texts p (List.mem_of_mem_filter hp)

theorem reading_orderly (b : BuiltIn) : Orderly b.reading := by
  cases b <;> unfold reading
  · exact Script.scan_orderly
  · exact Dotenv.scan_orderly
  · exact Manifest.scan_orderly
  · exact Shell.scan_orderly

theorem reading_local (b : BuiltIn) : Local b.reading := b.reading_orderly.local

/-- How a built-in provider gets through a file: what stops it otherwise than by not being parsed is
a faulty text. -/
theorem reading_ends (b : BuiltIn) (here content path : String) (options : Options) :
    Ends (fun e => b.Faulty content path ↔ e.isParseFailure = false)
      (fun found => ¬ b.Faulty content path ∧ ∀ f ∈ found, f.Valid)
      (b.reading here content path options) := by
  cases b <;> simp only [reading, Faulty]
  case script =>
    refine (Script.scan_ends here content path options).imp (fun e ends => ⟨?_, ?_⟩) fun _ => id
    · intro faulty
      obtain ⟨fault, -, rfl⟩ := ends.1 faulty
      rfl
    · intro other
      by_contra calm
      simp [ends.2 calm] at other
  case dotenv =>
    obtain ⟨found, h⟩ := Dotenv.scan_total here content path options
    rw [h]
    exact .ok ⟨id, Dotenv.scan_valid h⟩
  case manifest =>
    refine (Manifest.scan_ends here content path options).imp (fun e ends => ⟨?_, ?_⟩) fun _ => id
    · intro faulty
      obtain ⟨fault, rfl⟩ := ends.1 faulty
      rfl
    · intro other
      by_contra calm
      simp [ends.2 calm] at other
  case shell =>
    exact (Shell.scan_ends here content path options).imp (fun _ => False.elim) fun _ valid =>
      ⟨id, valid⟩

/-- The provider handles the file, and its text is faulty. -/
def FaultyFile (b : BuiltIn) (shelf : Shelf) (path : String) : Prop :=
  b.provider.handles path = true ∧
    ∃ content, shelf.text path = some content ∧ content ≠ "" ∧ b.Faulty content path

theorem collectFile_ok_iff (b : BuiltIn) :
    (∃ out, collectFile b.reading shelf options path = .ok out) ↔
      ¬ ∃ content, shelf.text path = some content ∧ content ≠ "" ∧ b.Faulty content path := by
  cases text : (shelf.text path).filter (· ≠ "") with
  | none =>
    rw [collectFile, text]
    refine iff_of_true ⟨_, rfl⟩ ?_
    rintro ⟨content, h, some, -⟩
    simp [h, Option.filter, some] at text
  | some content =>
    obtain ⟨held, some⟩ := Option.filter_eq_some_iff.mp text
    have some : content ≠ "" := by simpa using some
    have only : (∃ c, shelf.text path = .some c ∧ c ≠ "" ∧ b.Faulty c path) ↔
        b.Faulty content path := by
      simp [held, some]
    rw [only, collectFile, text]
    have ends := b.reading_ends shelf.here content path options
    cases read : b.reading shelf.here content path options with
    | ok found =>
      simp only [read]
      exact iff_of_true ⟨_, rfl⟩ (ends.result read).1
    | error e =>
      simp only [read]
      rw [ends.failure read]
      cases e.isParseFailure <;> simp

/-- A collection succeeds just when none of its files is faulty. -/
theorem collect_ok_iff (b : BuiltIn) (options : Options) :
    (∃ out, b.provider.collect shelf files options = .ok out) ↔
      ∀ p ∈ files, ¬ b.FaultyFile shelf p := by
  rw [collect_eq, collectAll_ok_iff]
  constructor
  · rintro each p hp ⟨handled, faulty⟩
    exact b.collectFile_ok_iff.mp (each p (List.mem_filter.mpr ⟨hp, handled⟩)) faulty
  · intro calm p hp
    obtain ⟨hp, handled⟩ := List.mem_filter.mp hp
    exact b.collectFile_ok_iff.mpr fun faulty => calm p hp ⟨handled, faulty⟩

/-- What a collection finds, it finds file by file. -/
theorem collect_findings (b : BuiltIn) {out : Output}
    (h : b.provider.collect shelf files options = .ok out) :
    out.findings =
      (files.filter b.provider.handles).flatMap (findingsIn b.reading shelf options) := by
  rw [collect_eq] at h
  exact collectAll_findings h

theorem findingsIn_valid (b : BuiltIn) :
    ∀ f ∈ findingsIn b.reading shelf options path, f.Valid := by
  intro f hf
  obtain ⟨content, found, read, hf⟩ := read_of_mem_findingsIn hf
  exact ((b.reading_ends _ _ _ _).result read).2 f hf

end BuiltIn

end EnvCensus.Provider

/-!
## Files beside each other

A file takes nothing from the files collected with it as long as the collection
goes through: what refers to the others is what they give without it. It goes
through just when no file is faulty, whatever the texts. A faulty file takes
away everything.
-/

namespace EnvCensus.Provider

variable {shelf : Shelf} {options : Options} {files : List String} {here path : String}

/-- The files at other places than the path. -/
def without (here path : String) (files : List String) : List String :=
  files.filter fun p => Path.absolute here p ≠ Path.absolute here path

/-- Whether a finding refers to another file than the one at the path. -/
def refersBeyond (here path : String) (f : Finding) : Bool :=
  f.files.any fun r => r.path ≠ Path.absolute here path

/-- The file takes nothing away from the others: the collection succeeds, and what it finds in other
files is what it finds without the file. -/
def Isolates (p : Provider) (shelf : Shelf) (options : Options) (files : List String)
    (path : String) : Prop :=
  ∃ out rest, p.collect shelf files options = .ok out ∧
    p.collect shelf (without shelf.here path files) options = .ok rest ∧
    out.findings.filter (refersBeyond shelf.here path) = rest.findings

section

variable [Parsers]

/-- What is found in one file refers to other files either throughout or not at all. -/
theorem filter_findingsIn (b : BuiltIn) (p : String) :
    (findingsIn b.reading shelf options p).filter (refersBeyond shelf.here path) =
      if Path.absolute shelf.here p ≠ Path.absolute shelf.here path then
        findingsIn b.reading shelf options p
      else [] := by
  have place : ∀ f ∈ findingsIn b.reading shelf options p, f.PointsTo (Path.absolute shelf.here p) :=
    findingsIn_local b.reading_local
  split
  · rename_i elsewhere
    refine List.filter_eq_self.mpr fun f hf => ?_
    obtain ⟨r, hr⟩ := List.exists_mem_of_ne_nil _ (b.findingsIn_valid f hf).1
    simp only [refersBeyond, List.any_eq_true, decide_eq_true_eq]
    exact ⟨r, hr, by rwa [place f hf r hr]⟩
  · rename_i same
    refine List.filter_eq_nil_iff.mpr fun f hf => ?_
    simp only [refersBeyond, List.any_eq_true, decide_eq_true_eq, not_exists, not_and]
    intro r hr
    rwa [place f hf r hr]

/-- Without a file, a list of files gives what it gives beside that file. -/
theorem filter_flatMap_findingsIn (b : BuiltIn) (files : List String) :
    (files.flatMap (findingsIn b.reading shelf options)).filter (refersBeyond shelf.here path) =
      (without shelf.here path files).flatMap (findingsIn b.reading shelf options) := by
  induction files with
  | nil => rfl
  | cons p files ih =>
    rw [List.flatMap_cons, List.filter_append, ih, filter_findingsIn]
    by_cases elsewhere : Path.absolute shelf.here p ≠ Path.absolute shelf.here path
    · rw [if_pos elsewhere, without, without, List.filter_cons_of_pos (by simpa using elsewhere),
        List.flatMap_cons]
    · rw [if_neg elsewhere, without, without, List.filter_cons_of_neg (by simpa using elsewhere),
        List.nil_append]

/-- Every file is isolated just when none is faulty, whatever the parsers make of the texts. -/
theorem isolates_iff_no_faulty (b : BuiltIn) (shelf : Shelf) (options : Options)
    (files : List String) :
    (∀ path ∈ files, Isolates b.provider shelf options files path) ↔
      ∀ path ∈ files, ¬ b.FaultyFile shelf path := by
  constructor
  · intro isolated path hpath
    obtain ⟨out, -, collected, -⟩ := isolated path hpath
    exact (b.collect_ok_iff options).mp ⟨out, collected⟩ path hpath
  · intro calm path _
    obtain ⟨out, collected⟩ := (b.collect_ok_iff options).mpr calm
    obtain ⟨rest, kept⟩ := (b.collect_ok_iff options).mpr
      fun p (hp : p ∈ without shelf.here path files) => calm p (List.mem_of_mem_filter hp)
    refine ⟨out, rest, collected, kept, ?_⟩
    rw [b.collect_findings collected, b.collect_findings kept, filter_flatMap_findingsIn, without,
      without, List.filter_comm]

end

/-- Two scripts and two manifests, one of each faulty: an escape with a code beyond the last code
point, and a date that does not exist. -/
def faultyShelf : Shelf where
  here := "/p"
  text
    | "/p/a.js" => some "const a = process.env.A;\n"
    | "/p/g.js" => some "const g = process.env.G || \"\\u\x7b110000\x7d\";\n"
    | "/p/compose.yml" => some "services:\n  web:\n    environment:\n      - TOKEN\n"
    | "/p/g.yml" => some "when: 2024-13-45\n"
    | _ => none

/-- A faulty file is not isolated: the collection ends with it, and the other file has findings. -/
theorem faultyShelf_not_isolated :
    script.collect faultyShelf ["/p/a.js"] {} =
        .ok { findings := [⟨"A", .process, [⟨"/p/a.js", 1, 11, none, none⟩], true, none, false, []⟩]
              filesScanned := 1 } ∧
      script.collect faultyShelf ["/p/a.js", "/p/g.js"] {} =
        .error (.escape (.beyondCodePoints 0x110000)) ∧
      ¬ Isolates script faultyShelf {} ["/p/a.js", "/p/g.js"] "/p/g.js" ∧
      ¬ Isolates manifest faultyShelf {} ["/p/compose.yml", "/p/g.yml"] "/p/g.yml" := by
  have escape : script.collect faultyShelf ["/p/a.js", "/p/g.js"] {} =
      .error (.escape (.beyondCodePoints 0x110000)) := by decide +kernel
  have date : manifest.collect faultyShelf ["/p/compose.yml", "/p/g.yml"] {} =
      .error (.scalar (.impossibleDate "2024-13-45")) := by decide +kernel
  refine ⟨by decide +kernel, escape, ?_, ?_⟩
  · rintro ⟨out, -, collected, -⟩
    cases escape.symm.trans collected
  · rintro ⟨out, -, collected, -⟩
    cases date.symm.trans collected

end EnvCensus.Provider
