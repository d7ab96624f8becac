import EnvCensus.Census.Scan
import EnvCensus.Proofs.Provider.Collection

/-!
# What a scan merges

A scan merges what the enabled providers add, one after the other. A file that
is a declaration file and nothing else adds its findings in one place of this
list, and taking it away leaves the rest as it is.
-/

namespace EnvCensus.Census

open Provider (Shelf Local findingsIn)

variable {shelf shelf' : Shelf} {options : Options} {files as bs back back' : List String}

/-- What the enabled providers of a scan find, before anything is merged. -/
def collected (shelf : Shelf) (registry : Registry) (files : List String) (options : Options) :
    List Finding :=
  (outputs shelf registry files options).flatMap fun o => o.2.findings

/-- What one provider has a share of in a scan. -/
def share (shelf : Shelf) (files : List String) (options : Options) (p : Provider) :
    List Finding :=
  if Registry.admits options p.name then p.added shelf files options else []

theorem collected_eq (shelf : Shelf) (registry : Registry) (files : List String)
    (options : Options) :
    collected shelf registry files options =
      registry.providers.flatMap (share shelf files options) := by
  rw [collected, outputs, Registry.enabled, List.flatMap_map]
  induction registry.providers with
  | nil => rfl
  | cons p ps ih =>
    rw [List.flatMap_cons, ← ih, share, List.filter_cons]
    split
    · rw [List.flatMap_cons, Provider.added]
      cases p.collect shelf files options <;> rfl
    · rfl

/-- What is collected was found by an enabled provider that has not failed. -/
theorem mem_collected {registry : Registry} {f : Finding} :
    f ∈ collected shelf registry files options ↔ ∃ p ∈ registry.enabled options, ∃ out,
      p.collect shelf files options = .ok out ∧ f ∈ out.findings := by
  simp only [collected, outputs, List.mem_flatMap, List.mem_map]
  constructor
  · rintro ⟨-, ⟨p, hp, rfl⟩, hf⟩
    cases result : p.collect shelf files options with
    | ok out =>
      simp only [result] at hf
      exact ⟨p, hp, out, result, hf⟩
    | error e =>
      simp only [result] at hf
      cases hf
  · rintro ⟨p, hp, out, result, hf⟩
    refine ⟨_, ⟨p, hp, rfl⟩, ?_⟩
    simpa only [result] using hf

theorem collected_standard (shelf : Shelf) (files : List String) (options : Options) :
    collected shelf Registry.standard files options =
      share shelf files options Provider.script ++ share shelf files options Provider.dotenv ++
        share shelf files options Provider.manifest ++
        share shelf files options Provider.shell := by
  rw [collected_eq]
  simp [Registry.standard, Provider.builtIn]

/-- What the provider for declarations finds in the files. -/
def declared (shelf : Shelf) (options : Options) (files : List String) : List Finding :=
  if Registry.admits options Provider.dotenv.name then
    files.flatMap (findingsIn Dotenv.scan shelf options)
  else []

theorem share_dotenv (shelf : Shelf) (files : List String) (options : Options) :
    share shelf files options Provider.dotenv =
      declared shelf options (files.filter Dotenv.handles) := by
  rw [share, declared, Provider.added_dotenv]

theorem declared_nil (shelf : Shelf) (options : Options) : declared shelf options [] = [] := by
  unfold declared
  split <;> rfl

theorem declared_append (shelf : Shelf) (options : Options) (xs ys : List String) :
    declared shelf options (xs ++ ys) = declared shelf options xs ++ declared shelf options ys := by
  unfold declared
  split
  · exact List.flatMap_append
  · rfl

theorem declared_congr (here : shelf'.here = shelf.here)
    (texts : ∀ p ∈ files, shelf'.text p = shelf.text p) :
    declared shelf' options files = declared shelf options files := by
  have each : ∀ p ∈ files, findingsIn Dotenv.scan shelf' options p =
      findingsIn Dotenv.scan shelf options p := by
    intro p hp
    unfold findingsIn
    rw [texts p hp, here]
  unfold declared
  split
  · simp only [List.flatMap_def, List.map_congr_left each]
  · rfl

/-! ### The result of a scan -/

/-- What a file has on the shelf of a disk is decided by its bytes. -/
theorem shelfOf_text {d : Disk} {here : Disk.Place} {path : String} {bytes : List UInt8}
    (there : d.bytes? here path = some bytes) (options : Options) :
    (shelfOf d here options).text path = Disk.scannedText? bytes options.maxFileSize := by
  show (d.bytes? here path).bind _ = _
  rw [there]
  rfl

/-- A scan has the findings that what is collected merges to, and counts them by their sources. -/
theorem ofFiles_ok {d : Disk} {here : Disk.Place} {clock : Clock} {registry : Registry}
    {framework : Option String} {c : Census}
    (h : ofFiles d here clock registry framework options files = .ok c) :
    Finding.mergeAll (collected (shelfOf d here options) registry files options) =
        .ok c.findings ∧
      c.scannedAt = clock.time ∧ c.tally.bySource = countBySource c.findings := by
  obtain ⟨findings, hfindings, h⟩ := bind_eq_ok.mp h
  cases h
  exact ⟨mapError_eq_ok.mp hfindings, rfl, rfl⟩

theorem ofFiles_framework {d : Disk} {here : Disk.Place} {clock : Clock} {registry : Registry}
    {framework : Option String} {c : Census}
    (h : ofFiles d here clock registry framework options files = .ok c) :
    c.framework = framework := by
  obtain ⟨findings, -, h⟩ := bind_eq_ok.mp h
  cases h
  rfl

theorem ofFiles_of_merged {d : Disk} {here : Disk.Place} (clock : Clock) {registry : Registry}
    (framework : Option String) {findings : List Finding}
    (h : Finding.mergeAll (collected (shelfOf d here options) registry files options) =
      .ok findings) :
    ∃ c, ofFiles d here clock registry framework options files = .ok c ∧
      c.findings = findings := by
  refine ⟨_, bind_eq_ok.mpr ⟨findings, mapError_eq_ok.mpr h, rfl⟩, rfl⟩

theorem countBySource_tags (findings : List Finding) :
    ∀ e ∈ countBySource findings, ∃ s : Source, e.1 = s.tag := by
  intro e he
  obtain ⟨s, -, rfl⟩ := List.mem_map.mp he
  exact ⟨s, rfl⟩

/-! ### Where the findings of a scan point -/

theorem share_local {name : String} {source : Source} {extensions : List String}
    {handles : String → Bool} {reading : Provider.Reading} (h : Local reading) :
    ∀ f ∈ share shelf files options (.ofReading name source extensions handles reading),
      ∃ p ∈ files, f.PointsTo (Path.absolute shelf.here p) := by
  intro f hf
  unfold share at hf
  split at hf
  · exact Provider.added_local h f hf
  · cases hf

theorem declared_local :
    ∀ f ∈ declared shelf options files, ∃ p ∈ files, f.PointsTo (Path.absolute shelf.here p) := by
  intro f hf
  unfold declared at hf
  split at hf
  · obtain ⟨p, hp, hf⟩ := List.mem_flatMap.mp hf
    exact ⟨p, hp, Provider.findingsIn_local Dotenv.scan_orderly.local f hf⟩
  · cases hf

theorem declared_valid : ∀ f ∈ declared shelf options files, f.Valid := by
  intro f hf
  unfold declared at hf
  split at hf
  · obtain ⟨p, -, hf⟩ := List.mem_flatMap.mp hf
    unfold findingsIn at hf
    split at hf
    · cases hf
    · split at hf
      · rename_i read
        exact Dotenv.scan_valid read f hf
      · cases hf
  · cases hf

/-! ### One declaration file among others -/

/-- A file that no provider but the one for declarations looks at. -/
structure OnlyDeclares (path : String) : Prop where
  declares : Dotenv.handles path = true
  no_script : Script.handles path = false
  no_manifest : Manifest.handles path = false
  no_shell : Shell.handles path = false

/-- What is collected before a declaration file that stands between two lists of files. -/
def earlier (shelf : Shelf) (options : Options) (as bs : List String) : List Finding :=
  share shelf (as ++ bs) options Provider.script ++
    declared shelf options (as.filter Dotenv.handles)

/-- What is collected after it. -/
def later (shelf : Shelf) (options : Options) (as bs : List String) : List Finding :=
  declared shelf options (bs.filter Dotenv.handles) ++
    share shelf (as ++ bs) options Provider.manifest ++
    share shelf (as ++ bs) options Provider.shell

theorem share_unhandled {name : String} {source : Source} {extensions : List String}
    {handles : String → Bool} {reading : Provider.Reading} (here : shelf'.here = shelf.here)
    (texts : ∀ p ∈ as ++ bs, shelf'.text p = shelf.text p)
    (other : ∀ p ∈ back, handles p = false) :
    share shelf' (as ++ back ++ bs) options (.ofReading name source extensions handles reading) =
      share shelf (as ++ bs) options (.ofReading name source extensions handles reading) := by
  rw [share, share, Provider.added_unhandled here texts other]

/-- Files that only declare are seen in one place of what is collected, and the rest depends on
the texts of the other files alone. -/
theorem collected_around (only : ∀ p ∈ back, OnlyDeclares p) (here : shelf'.here = shelf.here)
    (texts : ∀ p ∈ as ++ bs, shelf'.text p = shelf.text p) :
    collected shelf' Registry.standard (as ++ back ++ bs) options =
      earlier shelf options as bs ++ declared shelf' options back ++
        later shelf options as bs := by
  have script : share shelf' (as ++ back ++ bs) options Provider.script =
      share shelf (as ++ bs) options Provider.script :=
    share_unhandled here texts fun p hp => (only p hp).no_script
  have manifest : share shelf' (as ++ back ++ bs) options Provider.manifest =
      share shelf (as ++ bs) options Provider.manifest :=
    share_unhandled here texts fun p hp => (only p hp).no_manifest
  have shell : share shelf' (as ++ back ++ bs) options Provider.shell =
      share shelf (as ++ bs) options Provider.shell :=
    share_unhandled here texts fun p hp => (only p hp).no_shell
  have own : back.filter Dotenv.handles = back :=
    List.filter_eq_self.mpr fun p hp => (only p hp).declares
  have front : declared shelf' options (as.filter Dotenv.handles) =
      declared shelf options (as.filter Dotenv.handles) :=
    declared_congr here fun p hp =>
      texts p (List.mem_append_left _ (List.mem_of_mem_filter hp))
  have rear : declared shelf' options (bs.filter Dotenv.handles) =
      declared shelf options (bs.filter Dotenv.handles) :=
    declared_congr here fun p hp =>
      texts p (List.mem_append_right _ (List.mem_of_mem_filter hp))
  have dotenv : share shelf' (as ++ back ++ bs) options Provider.dotenv =
      declared shelf options (as.filter Dotenv.handles) ++ declared shelf' options back ++
        declared shelf options (bs.filter Dotenv.handles) := by
    rw [share_dotenv, List.filter_append, List.filter_append, own, declared_append,
      declared_append, front, rear]
  rw [collected_standard, script, manifest, shell, dotenv, earlier, later]
  simp only [List.append_assoc]

/-- What is collected depends on the texts of the files. -/
theorem collected_of_texts (here : shelf'.here = shelf.here)
    (texts : ∀ p ∈ files, shelf'.text p = shelf.text p) :
    collected shelf' Registry.standard files options =
      earlier shelf options files [] ++ later shelf options files [] := by
  have only : ∀ p ∈ ([] : List String), OnlyDeclares p := by simp
  have around : collected shelf' Registry.standard (files ++ [] ++ []) options = _ :=
    collected_around only here (by simpa using texts)
  simpa [declared_nil] using around

/-- What is collected beside a declaration file points to the other files. -/
theorem points_to_others : ∀ f ∈ earlier shelf options as bs ++ later shelf options as bs,
    ∃ p ∈ as ++ bs, f.PointsTo (Path.absolute shelf.here p) := by
  have part : ∀ {files : List String}, (∀ p ∈ files, p ∈ as ++ bs) →
      ∀ f ∈ declared shelf options (files.filter Dotenv.handles),
        ∃ p ∈ as ++ bs, f.PointsTo (Path.absolute shelf.here p) := by
    intro files inside f hf
    obtain ⟨p, hp, hf⟩ := declared_local f hf
    exact ⟨p, inside p (List.mem_of_mem_filter hp), hf⟩
  intro f hf
  simp only [earlier, later, List.mem_append] at hf
  rcases hf with (hf | hf) | (hf | hf) | hf
  · exact share_local Script.scan_orderly.local f hf
  · exact part (fun p hp => List.mem_append_left _ hp) f hf
  · exact part (fun p hp => List.mem_append_right _ hp) f hf
  · exact share_local Manifest.scan_orderly.local f hf
  · exact share_local Shell.scan_orderly.local f hf

end EnvCensus.Census
