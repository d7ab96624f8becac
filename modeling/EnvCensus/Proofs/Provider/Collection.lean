import EnvCensus.Proofs.Dotenv
import EnvCensus.Proofs.Provider.References

/-!
# What a collection adds up to

A collection goes file by file: it depends on the texts of its files alone, the
collections of two lists add up to the one of both, and its findings point into
the files that it looked at.
-/

namespace EnvCensus.Provider

variable {reading : Reading} {shelf shelf' : Shelf} {options : Options} {files : List String}
  {path : String} {out : Output}

/-! ### One file -/

/-- What reading one file adds, unless it fails: a file without a text is only counted, and one that
cannot be parsed is counted as such. -/
inductive Adds (reading : Reading) (shelf : Shelf) (options : Options) (path : String) :
    Output → Prop
  | textless (away : (shelf.text path).filter (· ≠ "") = none) :
      Adds reading shelf options path { filesScanned := 1 }
  | parsed (content : String) (found : List Finding)
      (text : (shelf.text path).filter (· ≠ "") = some content)
      (read : reading shelf.here content path options = .ok found) :
      Adds reading shelf options path { findings := found, filesScanned := 1 }
  | unparsed (content : String) (e : Failure)
      (text : (shelf.text path).filter (· ≠ "") = some content)
      (read : reading shelf.here content path options = .error e)
      (parse : e.isParseFailure = true) :
      Adds reading shelf options path { parseErrors := 1, filesScanned := 1 }

theorem collectFile_eq_ok :
    collectFile reading shelf options path = .ok out ↔ Adds reading shelf options path out := by
  constructor
  · intro h
    cases text : (shelf.text path).filter (· ≠ "") with
    | none =>
      rw [collectFile, text] at h
      cases h
      exact .textless text
    | some content =>
      rw [collectFile, text] at h
      cases read : reading shelf.here content path options with
      | ok found =>
        simp only [read] at h
        cases h
        exact .parsed content found text read
      | error e =>
        simp only [read] at h
        split at h
        · rename_i parse
          cases h
          exact .unparsed content e text read parse
        · cases h
  · rintro (away | ⟨content, found, text, read⟩ | ⟨content, e, text, read, parse⟩)
    · rw [collectFile, away]
    · rw [collectFile, text]
      simp only [read]
    · rw [collectFile, text]
      simp only [read, if_pos parse]

/-- A file is counted once, and at most once as one that cannot be parsed. -/
theorem Adds.counts (h : Adds reading shelf options path out) :
    out.filesScanned = 1 ∧ out.parseErrors ≤ 1 := by
  cases h <;> simp

/-- What a reading finds in one file of a shelf. -/
def findingsIn (reading : Reading) (shelf : Shelf) (options : Options) (path : String) :
    List Finding :=
  match (shelf.text path).filter (· ≠ "") with
  | none => []
  | some content =>
    match reading shelf.here content path options with
    | .ok found => found
    | .error _ => []

theorem Adds.findings (h : Adds reading shelf options path out) :
    out.findings = findingsIn reading shelf options path := by
  cases h with
  | textless away => rw [findingsIn, away]
  | parsed content found text read => simp only [findingsIn, text, read]
  | unparsed content e text read parse => simp only [findingsIn, text, read]

/-! ### Lists of files -/

theorem Output.nil_append (a : Output) : Output.append {} a = a := by
  simp [Output.append]

theorem Output.append_assoc (a b c : Output) : (a.append b).append c = a.append (b.append c) := by
  simp [Output.append, Nat.add_assoc]

/-- Two lists of files are collected one after the other. -/
theorem collectAll_append (reading : Reading) (shelf : Shelf) (options : Options)
    (xs ys : List String) :
    collectAll reading shelf options (xs ++ ys) = (do
      let first ← collectAll reading shelf options xs
      return first.append (← collectAll reading shelf options ys)) := by
  induction xs with
  | nil =>
    cases h : collectAll reading shelf options ys with
    | error e => simp [collectAll, h, bind, Except.bind]
    | ok b => simp [collectAll, h, bind, Except.bind, pure, Except.pure, Output.nil_append]
  | cons x xs ih =>
    rw [List.cons_append, collectAll, collectAll, ih]
    cases collectFile reading shelf options x with
    | error e => rfl
    | ok first =>
      cases collectAll reading shelf options xs with
      | error e => rfl
      | ok a =>
        cases collectAll reading shelf options ys with
        | error e => rfl
        | ok b => simp [bind, Except.bind, pure, Except.pure, Output.append_assoc]

/-- A collection depends on the texts of its files. -/
theorem collectAll_congr (here : shelf'.here = shelf.here)
    (texts : ∀ p ∈ files, shelf'.text p = shelf.text p) :
    collectAll reading shelf' options files = collectAll reading shelf options files := by
  induction files with
  | nil => rfl
  | cons p files ih =>
    have first : collectFile reading shelf' options p = collectFile reading shelf options p := by
      unfold collectFile
      rw [texts p List.mem_cons_self, here]
    rw [collectAll, collectAll, first, ih fun q hq => texts q (List.mem_cons_of_mem _ hq)]

/-- The findings of a collection are those in its files, in the order of the files. -/
theorem collectAll_findings (h : collectAll reading shelf options files = .ok out) :
    out.findings = files.flatMap (findingsIn reading shelf options) := by
  induction files generalizing out with
  | nil =>
    cases h
    rfl
  | cons p files ih =>
    obtain ⟨first, hfirst, h⟩ := bind_eq_ok.mp h
    obtain ⟨rest, hrest, h⟩ := bind_eq_ok.mp h
    cases h
    rw [List.flatMap_cons, ← (collectFile_eq_ok.mp hfirst).findings, ← ih hrest]
    rfl

/-- Every file of a collection is counted, and no more files cannot be parsed than there are. -/
theorem collectAll_counts (h : collectAll reading shelf options files = .ok out) :
    out.filesScanned = files.length ∧ out.parseErrors ≤ files.length := by
  induction files generalizing out with
  | nil =>
    cases h
    exact ⟨rfl, Nat.le_refl 0⟩
  | cons p files ih =>
    obtain ⟨first, hfirst, h⟩ := bind_eq_ok.mp h
    obtain ⟨rest, hrest, h⟩ := bind_eq_ok.mp h
    cases h
    obtain ⟨one, atMost⟩ := (collectFile_eq_ok.mp hfirst).counts
    obtain ⟨all, few⟩ := ih hrest
    simp only [Output.append, List.length_cons]
    omega

/-- A collection goes on unless reading one of its files fails. -/
theorem collectAll_ok_iff :
    (∃ out, collectAll reading shelf options files = .ok out) ↔
      ∀ p ∈ files, ∃ out, collectFile reading shelf options p = .ok out := by
  induction files with
  | nil => simp [collectAll]
  | cons p files ih =>
    rw [List.forall_mem_cons, ← ih]
    constructor
    · rintro ⟨out, h⟩
      obtain ⟨first, hfirst, h⟩ := bind_eq_ok.mp h
      obtain ⟨rest, hrest, -⟩ := bind_eq_ok.mp h
      exact ⟨⟨first, hfirst⟩, rest, hrest⟩
    · rintro ⟨⟨first, hfirst⟩, rest, hrest⟩
      exact ⟨first.append rest, by rw [collectAll, hfirst, hrest]; rfl⟩

/-- The outcomes of reading one file with which a collection goes on: findings, or a file that
cannot be parsed. -/
def Passes : Except Failure (List Finding) → Prop
  | .ok _ => True
  | .error e => e.isParseFailure = true

instance : (x : Except Failure (List Finding)) → Decidable (Passes x)
  | .ok _ => inferInstanceAs (Decidable True)
  | .error e => inferInstanceAs (Decidable (e.isParseFailure = true))

theorem Passes.adds (passes : ∀ content ∈ shelf.text path, content ≠ "" →
      Passes (reading shelf.here content path options)) :
    ∃ out, Adds reading shelf options path out := by
  cases text : (shelf.text path).filter (· ≠ "") with
  | none => exact ⟨_, .textless text⟩
  | some content =>
    obtain ⟨there, full⟩ := Option.filter_eq_some_iff.mp text
    have outcome := passes content there (by simpa using full)
    cases read : reading shelf.here content path options with
    | ok found => exact ⟨_, .parsed content found text read⟩
    | error e =>
      rw [read] at outcome
      exact ⟨_, .unparsed content e text read outcome⟩

theorem collectAll_ok (passes : ∀ p ∈ files, ∀ content ∈ shelf.text p, content ≠ "" →
      Passes (reading shelf.here content p options)) :
    ∃ out, collectAll reading shelf options files = .ok out :=
  collectAll_ok_iff.mpr fun p hp =>
    (Passes.adds (passes p hp)).imp fun _ => collectFile_eq_ok.mpr

/-- A reading that never fails makes no collection fail. -/
theorem collectAll_total (total : ∀ here content path options,
      ∃ found, reading here content path options = .ok found)
    (shelf : Shelf) (options : Options) (files : List String) :
    ∃ out, collectAll reading shelf options files = .ok out := by
  refine collectAll_ok fun p _ content _ _ => ?_
  obtain ⟨found, read⟩ := total shelf.here content p options
  rw [read]
  trivial

/-- What is found in a file was read in its text. -/
theorem read_of_mem_findingsIn {f : Finding}
    (h : f ∈ findingsIn reading shelf options path) :
    ∃ content found, reading shelf.here content path options = .ok found ∧ f ∈ found := by
  unfold findingsIn at h
  split at h
  · cases h
  · rename_i content _
    split at h
    · rename_i found read
      exact ⟨content, found, read, h⟩
    · cases h

theorem findingsIn_local (h : Local reading) :
    ∀ f ∈ findingsIn reading shelf options path, f.PointsTo (Path.absolute shelf.here path) := by
  intro f hf
  obtain ⟨content, found, read, hf⟩ := read_of_mem_findingsIn hf
  exact h read f hf

/-! ### Findings of a provider -/

/-- What a provider adds to a scan; one that fails adds nothing. -/
def added (p : Provider) (shelf : Shelf) (files : List String) (options : Options) :
    List Finding :=
  match p.collect shelf files options with
  | .ok out => out.findings
  | .error _ => []

theorem added_ofReading (name : String) (source : Source) (extensions : List String)
    (handles : String → Bool) (reading : Reading) (shelf : Shelf) (files : List String)
    (options : Options) :
    added (ofReading name source extensions handles reading) shelf files options =
      match collectAll reading shelf options (files.filter handles) with
      | .ok out => out.findings
      | .error _ => [] := rfl

/-- The findings of a provider point into files that it handles. -/
theorem added_local {name : String} {source : Source} {extensions : List String}
    {handles : String → Bool} (h : Local reading) :
    ∀ f ∈ added (ofReading name source extensions handles reading) shelf files options,
      ∃ p ∈ files, f.PointsTo (Path.absolute shelf.here p) := by
  intro f hf
  rw [added_ofReading] at hf
  split at hf
  · rename_i out hout
    rw [collectAll_findings hout] at hf
    obtain ⟨p, hp, hf⟩ := List.mem_flatMap.mp hf
    exact ⟨p, List.mem_of_mem_filter hp, findingsIn_local h f hf⟩
  · cases hf

/-- A provider does not see a file that it does not handle. -/
theorem added_unhandled {name : String} {source : Source} {extensions : List String}
    {handles : String → Bool} {as bs back : List String} (here : shelf'.here = shelf.here)
    (texts : ∀ p ∈ as ++ bs, shelf'.text p = shelf.text p) (other : ∀ p ∈ back, handles p = false) :
    added (ofReading name source extensions handles reading) shelf' (as ++ back ++ bs) options =
      added (ofReading name source extensions handles reading) shelf (as ++ bs) options := by
  have none : back.filter handles = [] := by
    refine List.filter_eq_nil_iff.mpr fun p hp => ?_
    simp [other p hp]
  have kept : (as ++ back ++ bs).filter handles = (as ++ bs).filter handles := by
    simp [none]
  rw [added_ofReading, added_ofReading, kept, collectAll_congr here fun p hp =>
    texts p (List.mem_of_mem_filter hp)]

/-- What declaration files add, file by file. -/
theorem added_dotenv (shelf : Shelf) (files : List String) (options : Options) :
    added dotenv shelf files options =
      (files.filter Dotenv.handles).flatMap (findingsIn Dotenv.scan shelf options) := by
  obtain ⟨out, hout⟩ := collectAll_total Dotenv.scan_total shelf options
    (files.filter Dotenv.handles)
  rw [dotenv, added_ofReading, hout]
  exact collectAll_findings hout

end EnvCensus.Provider
