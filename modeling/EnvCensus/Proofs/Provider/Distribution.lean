import EnvCensus.Census.Scan
import EnvCensus.Proofs.Disk.Route
import EnvCensus.Proofs.Provider.BuiltIn
import EnvCensus.Proofs.Text.Utf8

/-!
# Collections of two lists

Whatever a provider reads and however it reads it: as long as reading no file fails
otherwise than by a file that cannot be parsed, the collection of two lists is the
sum of their collections. A file without a text that can be read adds nothing to
the findings, wherever it stands, and no count exceeds the number of files.
-/

namespace EnvCensus.Provider

variable {reading : Reading} {handles : String → Bool} {d : Disk} {here : Disk.Place}
  {shelf : Shelf} {options : Options} {files : List String} {path : String} {out : Output}

/-- The file has nothing to add: it cannot be read, is too large, binary or empty, or its text
cannot be parsed. -/
inductive AddsNothing (reading : Reading) (d : Disk) (here : Disk.Place) (options : Options)
    (path : String) : Prop
  | unreadable (away : d.bytes? here path = none)
  | tooLarge (bytes : List UInt8) (there : d.bytes? here path = some bytes)
      (size : options.maxFileSize < bytes.length)
  | binary (bytes : List UInt8) (there : d.bytes? here path = some bytes)
      (zero : 0 ∈ bytes.take Disk.sniffedLength)
  | empty (there : d.bytes? here path = some [])
  | unparsed (content : String) (e : Failure)
      (text : d.readText? here path options.maxFileSize = some content) (full : content ≠ "")
      (read : reading (Disk.pathOf here) content path options = .error e)
      (parse : e.isParseFailure = true)

theorem AddsNothing.adds (h : AddsNothing reading d here options path) :
    ∃ out, Adds reading (Census.shelfOf d here options) options path out ∧ out.findings = [] := by
  have textless (away : (d.readText? here path options.maxFileSize).filter (· ≠ "") = none) :
      ∃ out, Adds reading (Census.shelfOf d here options) options path out ∧ out.findings = [] :=
    ⟨_, .textless away, rfl⟩
  cases h with
  | unreadable away =>
    refine textless ?_
    rw [Disk.readText?, away]
    rfl
  | tooLarge bytes there size =>
    refine textless ?_
    rw [Disk.readText?, there, Option.bind_some, Disk.scannedText?, if_pos size]
    rfl
  | binary bytes there zero =>
    have sniffed : (bytes.take Disk.sniffedLength).contains 0 = true := by simpa using zero
    refine textless ?_
    rw [Disk.readText?, there, Option.bind_some, Disk.scannedText?, sniffed]
    split <;> rfl
  | empty there =>
    refine textless ?_
    rw [Disk.readText?, there, Option.bind_some, Disk.scannedText?, Text.decodeLossy_nil]
    split <;> rfl
  | unparsed content e text full read parse =>
    have kept : (d.readText? here path options.maxFileSize).filter (· ≠ "") = some content :=
      Option.filter_eq_some_iff.mpr ⟨text, by simpa using full⟩
    exact ⟨_, .unparsed content e kept read parse, rfl⟩

theorem collectAll_append_eq {xs ys : List String} {a b : Output}
    (first : collectAll reading shelf options xs = .ok a)
    (second : collectAll reading shelf options ys = .ok b) :
    collectAll reading shelf options (xs ++ ys) = .ok (a.append b) := by
  rw [collectAll_append, first, second]
  rfl

/-- A file with nothing to add leaves the findings of the others as they are. -/
theorem AddsNothing.collectAll_insert {xs ys : List String} {a b : Output}
    (h : AddsNothing reading d here options path)
    (first : collectAll reading (Census.shelfOf d here options) options xs = .ok a)
    (second : collectAll reading (Census.shelfOf d here options) options ys = .ok b) :
    ∃ c, collectAll reading (Census.shelfOf d here options) options (xs ++ path :: ys) = .ok c ∧
      c.findings = a.findings ++ b.findings := by
  obtain ⟨own, adds, none⟩ := h.adds
  have rest : collectAll reading (Census.shelfOf d here options) options (path :: ys) =
      .ok (own.append b) := by
    rw [collectAll, collectFile_eq_ok.mpr adds, second]
    rfl
  refine ⟨_, collectAll_append_eq first rest, ?_⟩
  simp only [Output.append, none, List.nil_append]

/-- The collections of two lists add up, that of a file with nothing to add has no findings, and a
file counts at most once. -/
theorem collect_distributes (name : String) (source : Source) (extensions : List String)
    (handles : String → Bool) (reading : Reading) (d : Disk) (here : Disk.Place)
    (options : Options) {xs ys : List String}
    (passes : ∀ p ∈ xs ++ ys, handles p = true →
      ∀ content ∈ d.readText? here p options.maxFileSize, content ≠ "" →
        Passes (reading (Disk.pathOf here) content p options)) :
    let p := ofReading name source extensions handles reading
    let shelf := Census.shelfOf d here options
    (∃ a b, p.collect shelf xs options = .ok a ∧ p.collect shelf ys options = .ok b ∧
      p.collect shelf (xs ++ ys) options =
        .ok { findings := a.findings ++ b.findings
              parseErrors := a.parseErrors + b.parseErrors
              filesScanned := a.filesScanned + b.filesScanned } ∧
      ∀ path, AddsNothing reading d here options path →
        ∃ c, p.collect shelf (xs ++ path :: ys) options = .ok c ∧
          c.findings = a.findings ++ b.findings) ∧
    ∀ files out, p.collect shelf files options = .ok out →
      out.parseErrors ≤ out.filesScanned ∧ out.filesScanned ≤ files.length := by
  intro p shelf
  constructor
  · have collected (part : List String) (sub : part ⊆ xs ++ ys) :
        ∃ out, collectAll reading shelf options (part.filter handles) = .ok out := by
      refine collectAll_ok fun q hq => ?_
      obtain ⟨hq, handled⟩ := List.mem_filter.mp hq
      exact passes q (sub hq) handled
    obtain ⟨a, first⟩ := collected xs (List.subset_append_left xs ys)
    obtain ⟨b, second⟩ := collected ys (List.subset_append_right xs ys)
    refine ⟨a, b, first, second, ?_, fun path nothing => ?_⟩
    · have both := collectAll_append_eq first second
      rwa [← List.filter_append] at both
    · have inserted := nothing.collectAll_insert first second
      cases handled : handles path with
      | true => rwa [← List.filter_cons_of_pos handled, ← List.filter_append] at inserted
      | false =>
        refine ⟨a.append b, ?_, rfl⟩
        have skipped : (path :: ys).filter handles = ys.filter handles :=
          List.filter_cons_of_neg (by simp [handled])
        have both := collectAll_append_eq first second
        rwa [← skipped, ← List.filter_append] at both
  · intro files out h
    obtain ⟨scanned, unparsed⟩ := collectAll_counts h
    exact ⟨scanned ▸ unparsed, scanned ▸ List.length_filter_le handles files⟩

/-- A manifest, one that cannot be parsed and a file with a zero byte. -/
def shippedFiles : List (String × List UInt8) := [
  ("compose.yaml", Text.encode "services:\n  web:\n    environment:\n      - TOKEN\n".toList),
  ("draft.yaml", Text.encode "services: [\n".toList),
  ("image.yaml", [0x89, 0])]

/-- A disk with these files in one folder. -/
def shippedFolder : Disk := .folder [("p", .folder (shippedFiles.map fun e => (e.1, .file e.2)))]

theorem bytes?_shippedFolder : ∀ e ∈ shippedFiles,
    shippedFolder.bytes? ["p"] (Disk.pathOf ["p", e.1]) = some e.2 := by
  simp only [shippedFiles, List.forall_mem_cons]
  exact ⟨Disk.bytes?_pathOf rfl (by decide) _, Disk.bytes?_pathOf rfl (by decide) _,
    Disk.bytes?_pathOf rfl (by decide) _, List.forall_mem_nil _⟩

/-- The file with a zero byte stands between the two others and adds nothing to what they add. -/
theorem collect_shippedFolder :
    let shelf := Census.shelfOf shippedFolder ["p"] {}
    let first := Disk.pathOf ["p", "compose.yaml"]
    let second := Disk.pathOf ["p", "draft.yaml"]
    let third := Disk.pathOf ["p", "image.yaml"]
    (∀ p ∈ [first] ++ [second], Manifest.handles p = true →
      ∀ content ∈ shippedFolder.readText? ["p"] p ({} : Options).maxFileSize, content ≠ "" →
        Passes (Manifest.scan (Disk.pathOf ["p"]) content p {})) ∧
    ∃ a b, manifest.collect shelf [first] {} = .ok a ∧ manifest.collect shelf [second] {} = .ok b ∧
      ∃ c, manifest.collect shelf ([first] ++ third :: [second]) {} = .ok c ∧
        c.findings = a.findings ++ b.findings := by
  intro shelf first second third
  have read : ∀ e ∈ shippedFiles, ∀ content ∈ Disk.scannedText? e.2 ({} : Options).maxFileSize,
      Passes (Manifest.scan (Disk.pathOf ["p"]) content (Disk.pathOf ["p", e.1]) {}) := by
    decide +kernel
  have passes : ∀ p ∈ [first] ++ [second], Manifest.handles p = true →
      ∀ content ∈ shippedFolder.readText? ["p"] p ({} : Options).maxFileSize, content ≠ "" →
        Passes (Manifest.scan (Disk.pathOf ["p"]) content p {}) := by
    intro p hp _ content text _
    obtain ⟨e, he, rfl⟩ : ∃ e ∈ shippedFiles, Disk.pathOf ["p", e.1] = p := by
      rcases List.mem_pair.mp hp with rfl | rfl
      · exact ⟨_, List.mem_cons_self, rfl⟩
      · exact ⟨_, List.mem_cons_of_mem _ List.mem_cons_self, rfl⟩
    rw [Disk.readText?, bytes?_shippedFolder e he, Option.bind_some] at text
    exact read e he content text
  have nothing : AddsNothing Manifest.scan shippedFolder ["p"] {} third :=
    .binary [0x89, 0] (bytes?_shippedFolder ("image.yaml", [0x89, 0]) (by simp [shippedFiles]))
      (by decide)
  obtain ⟨⟨a, b, ha, hb, -, inserted⟩, -⟩ := collect_distributes "yaml" .docker
    Manifest.extensions Manifest.handles Manifest.scan shippedFolder ["p"] {} passes
  exact ⟨passes, a, b, ha, hb, inserted third nothing⟩

end EnvCensus.Provider
