import EnvCensus.Proofs.Disk.Growth
import EnvCensus.Proofs.Distinct
import EnvCensus.Proofs.Splits
import EnvCensus.Report.Output

/-!
# What an output writes

A list of formats with one in it that does not exist is refused before anything
is written. Otherwise an output succeeds just when the directory takes all the
files and all texts have bytes: then each format that the list stands for is
written once, in the order in which they first occur, and no other file changes.
A text with a half of a character in it has no bytes. Its file is left empty,
and the output ends there.
-/

namespace EnvCensus.Report

open Disk (Place Keeps Landing Grows)

/-! ### Formats -/

namespace Format

variable {t : String} {tags : List String}

def IsTag (t : String) : Prop := t = "all" ∨ ∃ f : Format, f.tag = t

/-- The formats that a tag stands for. -/
def standsFor (t : String) : List Format :=
  if t = "all" then [env, json, md] else all.filter fun f => f.tag = t

/-- The formats that the tags stand for one after the other, each where it first occurs. -/
def selected (tags : List String) : List Format := (tags.flatMap standsFor).eraseDups

theorem ofTag_of_isTag (h : IsTag t) : ofTag t = .ok (standsFor t) := by
  rcases h with rfl | ⟨f, rfl⟩
  · rfl
  · cases f <;> rfl

theorem ofTag_of_not_isTag (h : ¬ IsTag t) : ofTag t = .error (.unknownFormat t) := by
  rw [IsTag, not_or, not_exists] at h
  have unknown : all.find? (fun f => f.tag == t) = none :=
    List.find?_eq_none.mpr fun f _ => by simpa using h.2 f
  have notAll : ¬ (t == "all") = true := by simpa using h.1
  rw [ofTag, if_neg notAll, unknown]

theorem ofTags_eq_selected (h : ∀ t ∈ tags, IsTag t) : ofTags tags = .ok (selected tags) := by
  have each := mapM_eq_map fun t mem => ofTag_of_isTag (h t mem)
  rw [ofTags, each, ok_bind, selected, List.flatMap_def, List.eraseDups, distinctBy_eq_eraseDupsBy]
  rfl

theorem selected_nodup (tags : List String) : (selected tags).Nodup := by
  have same : selected tags = distinctBy id (tags.flatMap standsFor) :=
    (distinctBy_eq_eraseDupsBy _).symm
  exact same ▸ nodup_distinctBy_id _

/-- The first tag that does not exist is refused, whatever stands before and after it. -/
theorem ofTags_refused {before after : List String} (known : ∀ u ∈ before, IsTag u)
    (unknown : ¬ IsTag t) : ofTags (before ++ t :: after) = .error (.unknownFormat t) := by
  have refused : (before ++ t :: after).mapM ofTag = .error (.unknownFormat t) := by
    induction before with
    | nil =>
      rw [List.nil_append, List.mapM_cons, ofTag_of_not_isTag unknown]
      rfl
    | cons u before ih =>
      obtain ⟨first, others⟩ := List.forall_mem_cons.mp known
      rw [List.cons_append, List.mapM_cons, ofTag_of_isTag first, ok_bind, ih others]
      rfl
  rw [ofTags, refused]
  rfl

/-- Where some tag does not exist, there is a first one. -/
theorem exists_first_unknown (h : ∃ t ∈ tags, ¬ IsTag t) : ∃ before t after,
    tags = before ++ t :: after ∧ (∀ u ∈ before, IsTag u) ∧ ¬ IsTag t :=
  exists_first fun known => h.elim fun t ⟨mem, unknown⟩ => unknown (known t mem)

theorem proper_fileName (f : Format) : Path.Proper f.fileName := by
  cases f <;> decide

end Format

/-! ### Files in a directory -/

variable {d d' d₁ : Disk} {here w : Place} {root : Option Place} {directory : String} {c : Census}
  {f : Format} {formats : List Format} {text : Format → String}

/-- The path of a format in the directory leads to the place. -/
def Leads (d : Disk) (here : Place) (directory : String) (f : Format) (w : Place) : Prop :=
  d.route here (pathIn directory f.fileName) = .ok w

/-- No folder stands where the path of the format leads. -/
def Free (d : Disk) (here : Place) (directory : String) (f : Format) : Prop :=
  ∃ w, Leads d here directory f w ∧ (d.at? w).any Disk.isFolder = false

/-- The directory can be made, and in it no folder stands in the place of a file. Nothing has to be
made for no formats. -/
def Takes (d : Disk) (here : Place) (directory : String) (formats : List Format) : Prop :=
  formats = [] ∨ ∃ d₁, d.makeFolder here directory = (d₁, true) ∧
    ∀ f ∈ formats, Free d₁ here directory f

/-- The text of the format has bytes. -/
def HasBytes [Text.Halves] (root : Option Place) (c : Census) (f : Format) : Prop :=
  Text.isWhole (f.text root c).toList = true

/-- The files of the formats have been written and nothing else. Where links lead the paths of
several formats to one place, the last of them is there. -/
structure Written (d d' : Disk) (here : Place) (directory : String) (formats : List Format)
    (text : Format → String) : Prop where
  leads : ∀ f ∈ formats, ∃ w, Leads d' here directory f w
  files : ∀ {before f after w}, formats = before ++ f :: after → Leads d' here directory f w →
    (∀ g ∈ after, ¬ Leads d' here directory g w) →
    d'.at? w = some (.file (Text.encode (text f).toList))
  others : ∀ {p e}, (∀ f ∈ formats, ¬ Leads d' here directory f p) → e.isFolder = false →
    (d'.at? p = some e ↔ d.at? p = some e)
  keeps : Keeps d d'

theorem Leads.unique {v : Place} (h : Leads d here directory f w)
    (h' : Leads d here directory f v) : w = v :=
  Except.ok.inj (h.symm.trans h')

theorem namesFrom_pathIn (here : Place) (directory : String) (f : Format) :
    Disk.namesFrom here (pathIn directory f.fileName) =
      Disk.namesFrom here directory ++ [f.fileName] :=
  Path.namesFrom_join f.proper_fileName here directory

theorem landing_of_leads (h : Leads d here directory f w)
    (free : (d.at? w).any Disk.isFolder = false) : Landing d w := by
  obtain ⟨⟨_, left⟩, route, rfl⟩ := map_eq_ok.mp h
  rw [namesFrom_pathIn] at route
  obtain ⟨n, names, e⟩ := List.exists_cons_of_ne_nil
    (List.append_ne_nil_of_right_ne_nil (Disk.namesFrom here directory)
      (List.cons_ne_nil f.fileName []))
  rw [e] at route
  obtain ⟨_, top⟩ := Disk.folder_of_routeFrom route
  rcases Disk.landing_of_routeFrom top route with ⟨_, folder⟩ | landing
  · rw [folder] at free
    cases free
  · exact landing

/-- What it takes to write the file of a format, and what is then on the disk. -/
theorem write_pathIn_iff {bytes : List UInt8} :
    d.write here (pathIn directory f.fileName) bytes = (d', true) ↔ ∃ d₁ w,
      d.makeFolder here directory = (d₁, true) ∧ Leads d₁ here directory f w ∧
      (d₁.at? w).any Disk.isFolder = false ∧ d' = d₁.put (.file bytes) w := by
  rw [Disk.write_ok_iff, namesFrom_pathIn, List.dropLast_concat]
  rfl

/-- A file is written alike when the folders of the directory have been made before it. -/
theorem write_pathIn_made (made : d.makeFolder here directory = (d₁, true)) (bytes : List UInt8) :
    d.write here (pathIn directory f.fileName) bytes =
      d₁.write here (pathIn directory f.fileName) bytes := by
  have again := (Keeps.refl d₁).makeFolder made
  rw [Disk.makeFolder] at made again
  rw [Disk.write, Disk.write, namesFrom_pathIn, List.dropLast_concat]
  simp only [made, again]

/-- Where the same folders and links stand, the same formats are free. -/
theorem Free.of_keeps (there : Keeps d d') (back : Keeps d' d) (h : Free d here directory f) :
    Free d' here directory f := by
  obtain ⟨w, leads, free⟩ := h
  refine ⟨w, there.route_eq leads, ?_⟩
  cases entry : d'.at? w with
  | none => rfl
  | some e =>
    cases e with
    | file bs => rfl
    | link t => rfl
    | folder es =>
      obtain ⟨_, folder⟩ := back.folder entry
      rw [folder] at free
      cases free

/-! ### Runs over formats -/

/-- The paths of the formats. -/
def pathsIn (directory : String) (formats : List Format) : List String :=
  formats.map fun f => pathIn directory f.fileName

theorem Written.none (d : Disk) (here : Place) (directory : String) (text : Format → String) :
    Written d d here directory [] text where
  leads := by simp
  files := by simp
  others _ _ := Iff.rfl
  keeps := .refl d

/-- One more file in front of those that are written on the disk that it leaves. -/
theorem Written.cons (leads : Leads d here directory f w) (landing : Landing d w)
    (h : Written (d.put (.file (Text.encode (text f).toList)) w) d' here directory formats text) :
    Written d d' here directory (f :: formats) text where
  leads := List.forall_mem_cons.mpr
    ⟨⟨w, h.keeps.route_eq ((landing.keeps _).route_eq leads)⟩, h.leads⟩
  files := by
    intro before g after v split ends last
    cases before with
    | nil =>
      obtain ⟨rfl, rfl⟩ := List.cons.inj split
      obtain rfl := ends.unique (h.keeps.route_eq ((landing.keeps _).route_eq leads))
      exact (h.others last rfl).mpr (Disk.at?_put_self d _ _)
    | cons b before => exact h.files (List.cons.inj split).2 ends last
  others := by
    intro p e away leaf
    obtain ⟨first, others⟩ := List.forall_mem_cons.mp away
    have ne : p ≠ w := by
      rintro rfl
      exact first (h.keeps.route_eq ((landing.keeps _).route_eq leads))
    exact (h.others others leaf).trans (landing.writable.leaf_iff _ ne leaf)
  keeps := (landing.keeps _).trans h.keeps

/-- Making the folders of the directory first does not matter. -/
theorem Written.of_grows (grows : Grows d d₁) (h : Written d₁ d' here directory formats text) :
    Written d d' here directory formats text where
  leads := h.leads
  files := h.files
  others away leaf := (h.others away leaf).trans (grows.leaf leaf)
  keeps := grows.keeps.trans h.keeps

/-- A directory takes all formats when only folders stand on the way to it, and nothing but files
under their names. -/
theorem takes_of_writable {above : Place}
    (named : ∀ f ∈ formats, Disk.Names d here (pathIn directory f.fileName) above f.fileName)
    (writable : ∀ f ∈ formats, Disk.Writable d (above ++ [f.fileName])) :
    Takes d here directory formats := by
  have alone : ∀ f ∈ formats, ∃ d₁ w, d.makeFolder here directory = (d₁, true) ∧
      Leads d₁ here directory f w ∧ (d₁.at? w).any Disk.isFolder = false := by
    intro f hf
    obtain ⟨d₁, w, made, leads, free, -⟩ :=
      write_pathIn_iff.mp ((writable f hf).write_eq (named f hf) [])
    exact ⟨d₁, w, made, leads, free⟩
  cases formats with
  | nil => exact .inl rfl
  | cons g rest =>
    obtain ⟨d₁, -, made, -⟩ := alone g List.mem_cons_self
    refine .inr ⟨d₁, made, fun f hf => ?_⟩
    obtain ⟨d₂, w, made', leads, free⟩ := alone f hf
    have same := made.symm.trans made'
    rw [Prod.mk.injEq] at same
    obtain ⟨rfl, -⟩ := same
    exact ⟨w, leads, free⟩

section Halves

variable [Text.Halves]

section

-- Whether a file is written decides the rest, and evaluating that never helps.
attribute [local irreducible] Disk.write

theorem writeText_whole {path : String} {text : List Char} (whole : Text.isWhole text = true)
    (h : d.write here path (Text.encode text) = (d', true)) :
    writeText d here path text = (d', .ok ()) := by
  have bytes : Text.encode? text = some (Text.encode text) := if_pos whole
  simp [writeText, bytes, h]

theorem writeText_halved {path : String} {text : List Char} (halved : ¬ Text.isWhole text = true)
    (h : d.write here path [] = (d', true)) :
    writeText d here path text = (d', .error .encoding) := by
  have bytes : Text.encode? text = none := if_neg halved
  simp [writeText, bytes, h]

/-- A text that is written has bytes. -/
theorem of_writeText {path : String} {text : List Char}
    (h : writeText d here path text = (d', .ok ())) :
    Text.isWhole text = true ∧ d.write here path (Text.encode text) = (d', true) := by
  unfold writeText at h
  by_cases whole : Text.isWhole text = true
  · have bytes : Text.encode? text = some (Text.encode text) := if_pos whole
    refine ⟨whole, ?_⟩
    simp only [bytes, Option.getD_some] at h
    split at h
    · cases h
    · rename_i d₂ written
      cases h
      exact written
  · have bytes : Text.encode? text = none := if_neg whole
    simp only [bytes, Option.getD_none] at h
    split at h <;> cases h

theorem writeFormats_cons (here : Place) (root : Option Place) (directory : String) (c : Census)
    (d : Disk) (f : Format) (rest : List Format) :
    writeFormats here root directory c d (f :: rest) =
      match writeText d here (pathIn directory f.fileName) (f.text root c).toList with
      | (d, .error e) => (d, .error e)
      | (d, .ok ()) =>
        let (d, written) := writeFormats here root directory c d rest
        (d, written.map (pathIn directory f.fileName :: ·)) := rfl

/-- A text is written alike when the folders of the directory have been made before it. -/
theorem writeText_made (made : d.makeFolder here directory = (d₁, true)) (text : List Char) :
    writeText d here (pathIn directory f.fileName) text =
      writeText d₁ here (pathIn directory f.fileName) text := by
  rw [writeText, writeText, write_pathIn_made made]

end

omit [Text.Halves] in
/-- In a directory that is there and in which the format is free, any bytes are written. -/
theorem write_of_free (made : d.makeFolder here directory = (d, true))
    (free : Free d here directory f) (bytes : List UInt8) : ∃ w, Leads d here directory f w ∧
      Landing d w ∧ d.write here (pathIn directory f.fileName) bytes =
        (d.put (.file bytes) w, true) := by
  obtain ⟨w, leads, free⟩ := free
  exact ⟨w, leads, landing_of_leads leads free,
    write_pathIn_iff.mpr ⟨d, w, made, leads, free, rfl⟩⟩

/-- In a directory that is there and in which they are free, all formats are written whose texts
have bytes. -/
theorem writeFormats_of_free (made : d.makeFolder here directory = (d, true))
    (each : ∀ f ∈ formats, Free d here directory f) (whole : ∀ f ∈ formats, HasBytes root c f) :
    ∃ d', writeFormats here root directory c d formats = (d', .ok (pathsIn directory formats)) ∧
      Written d d' here directory formats fun f => f.text root c := by
  induction formats generalizing d with
  | nil => exact ⟨d, rfl, .none ..⟩
  | cons f rest ih =>
    obtain ⟨free, others⟩ := List.forall_mem_cons.mp each
    obtain ⟨firstWhole, restWhole⟩ := List.forall_mem_cons.mp whole
    obtain ⟨w, leads, landing, first⟩ := write_of_free made free (Text.encode (f.text root c).toList)
    have keeps := landing.keeps (Text.encode (f.text root c).toList)
    -- a file keeps all routes, so the other places are as free as they were
    obtain ⟨d', run, written⟩ := ih (keeps.makeFolder made)
      (fun g hg => (others g hg).of_keeps keeps (landing.keeps_back _)) restWhole
    refine ⟨d', ?_, written.cons leads landing⟩
    rw [writeFormats_cons, writeText_whole firstWhole first]
    simp only [run]
    rfl

/-- In a directory that is there, the output ends at the first format whose text has no bytes: all
before it are written, and its file is empty. -/
theorem writeFormats_halved {before : List Format} (after : List Format)
    (made : d.makeFolder here directory = (d, true))
    (each : ∀ g ∈ before ++ [f], Free d here directory g)
    (whole : ∀ g ∈ before, HasBytes root c g) (halved : ¬ HasBytes root c f)
    (once : f ∉ before) :
    ∃ d', writeFormats here root directory c d (before ++ f :: after) = (d', .error .encoding) ∧
      Written d d' here directory (before ++ [f]) fun g => if g = f then "" else g.text root c := by
  induction before generalizing d with
  | nil =>
    obtain ⟨w, leads, landing, first⟩ := write_of_free made (each f List.mem_cons_self) []
    let texts : Format → String := fun g => if g = f then "" else g.text root c
    have empty : Written (d.put (.file (Text.encode (texts f).toList)) w)
        (d.put (.file []) w) here directory [] texts := by
      simpa [texts, Text.encode] using Written.none ..
    refine ⟨_, ?_, empty.cons leads landing⟩
    rw [List.nil_append, writeFormats_cons, writeText_halved halved first]
  | cons g before ih =>
    obtain ⟨free, others⟩ := List.forall_mem_cons.mp each
    obtain ⟨firstWhole, restWhole⟩ := List.forall_mem_cons.mp whole
    obtain ⟨apart, later⟩ := not_or.mp (mt List.mem_cons.mpr once)
    obtain ⟨w, leads, landing, first⟩ := write_of_free made free (Text.encode (g.text root c).toList)
    have keeps := landing.keeps (Text.encode (g.text root c).toList)
    obtain ⟨d', run, written⟩ := ih (keeps.makeFolder made)
      (fun h hh => (others h hh).of_keeps keeps (landing.keeps_back _)) restWhole later
    refine ⟨d', ?_, Written.cons leads landing (by simpa [Ne.symm apart] using written)⟩
    rw [List.cons_append, writeFormats_cons, writeText_whole firstWhole first]
    simp only [run]
    rfl

theorem writeFormats_made (root : Option Place) (c : Census)
    (made : d.makeFolder here directory = (d₁, true)) :
    writeFormats here root directory c d (f :: formats) =
      writeFormats here root directory c d₁ (f :: formats) := by
  rw [writeFormats_cons, writeFormats_cons, writeText_made made]

omit [Text.Halves] in
/-- Where the directory takes the formats, it can be made first. -/
theorem Takes.made (takes : Takes d here directory (f :: formats)) :
    ∃ d₁, d.makeFolder here directory = (d₁, true) ∧
      d₁.makeFolder here directory = (d₁, true) ∧ Grows d d₁ ∧
      ∀ g ∈ f :: formats, Free d₁ here directory g := by
  obtain none | ⟨d₁, made, each⟩ := takes
  · cases none
  have grows := Disk.makeFoldersFrom_grows d [] (Disk.namesFrom here directory)
  rw [← Disk.makeFolder, made] at grows
  exact ⟨d₁, made, (Keeps.refl d₁).makeFolder made, grows, each⟩

theorem writeFormats_of_takes (takes : Takes d here directory formats)
    (whole : ∀ f ∈ formats, HasBytes root c f) :
    ∃ d', writeFormats here root directory c d formats = (d', .ok (pathsIn directory formats)) ∧
      Written d d' here directory formats fun f => f.text root c := by
  cases formats with
  | nil => exact ⟨d, rfl, .none ..⟩
  | cons f rest =>
    obtain ⟨d₁, made, again, grows, each⟩ := takes.made
    obtain ⟨d', run, written⟩ := writeFormats_of_free again each whole
    exact ⟨d', (writeFormats_made root c made).trans run, written.of_grows grows⟩

theorem writeFormats_stops (before after : List Format)
    (takes : Takes d here directory (before ++ [f])) (whole : ∀ g ∈ before, HasBytes root c g)
    (halved : ¬ HasBytes root c f) (once : f ∉ before) :
    ∃ d', writeFormats here root directory c d (before ++ f :: after) = (d', .error .encoding) ∧
      Written d d' here directory (before ++ [f]) fun g => if g = f then "" else g.text root c := by
  obtain ⟨g, rest, e⟩ : ∃ g rest, before ++ f :: after = g :: rest :=
    List.exists_cons_of_ne_nil (by simp)
  obtain ⟨g', rest', e'⟩ : ∃ g rest, before ++ [f] = g :: rest :=
    List.exists_cons_of_ne_nil (by simp)
  obtain ⟨d₁, made, again, grows, each⟩ := (e' ▸ takes).made
  obtain ⟨d', run, written⟩ :=
    writeFormats_halved after again (e' ▸ each) whole halved once
  refine ⟨d', ?_, written.of_grows grows⟩
  rw [e] at run ⊢
  exact (writeFormats_made root c made).trans run

/-- Formats are written only where the directory takes all of them and their texts have bytes. -/
theorem takes_of_writeFormats {paths : List String}
    (h : writeFormats here root directory c d formats = (d', .ok paths)) :
    Takes d here directory formats ∧ ∀ f ∈ formats, HasBytes root c f := by
  induction formats generalizing d paths with
  | nil => exact ⟨.inl rfl, by simp⟩
  | cons f rest ih =>
    rw [writeFormats_cons] at h
    cases result : writeText d here (pathIn directory f.fileName) (f.text root c).toList with
    | mk d₂ ended =>
      cases ended with
      | error e =>
        simp only [result] at h
        cases h
      | ok done =>
        simp only [result, Prod.mk.injEq] at h
        obtain ⟨whole, first⟩ := of_writeText result
        obtain ⟨more, run, -⟩ := map_eq_ok.mp h.2
        obtain ⟨d₁, w, made, leads, free, rfl⟩ := write_pathIn_iff.mp first
        have landing := landing_of_leads leads free
        have keeps := landing.keeps (Text.encode (f.text root c).toList)
        have back := landing.keeps_back (Text.encode (f.text root c).toList)
        obtain ⟨takes, restWhole⟩ := ih (Prod.ext h.1 run)
        refine ⟨.inr ⟨d₁, made, List.forall_mem_cons.mpr ⟨⟨w, leads, free⟩, fun g hg => ?_⟩⟩,
          List.forall_mem_cons.mpr ⟨whole, restWhole⟩⟩
        -- what the rest needs holds after the first file, and so it held before that
        obtain rfl | ⟨d₃, made', each⟩ := takes
        · cases hg
        · have same := made'.symm.trans (keeps.makeFolder made)
          rw [Prod.mk.injEq] at same
          obtain ⟨rfl, -⟩ := same
          exact (each g hg).of_keeps back keeps

/-! ### Outputs -/

/-- An output with a format that does not exist changes nothing. Every other one succeeds just when
the directory takes the files and all texts have bytes; it then gives the paths of the files, and
has written them and no other. In a directory that takes the files, it ends at the first text that
has no bytes, with an empty file for it. -/
theorem write_selected_exactly (d : Disk) (here : Place) (root : Option Place) (directory : String)
    (tags : List String) (c : Census) :
    ((∃ t ∈ tags, ¬ Format.IsTag t) → ∃ before t after, tags = before ++ t :: after ∧
      (∀ u ∈ before, Format.IsTag u) ∧ ¬ Format.IsTag t ∧
      write d here root directory tags c = (d, .error (.config (.unknownFormat t)))) ∧
    ((∀ t ∈ tags, Format.IsTag t) →
      ((∃ d' paths, write d here root directory tags c = (d', .ok paths)) ↔
        Takes d here directory (Format.selected tags) ∧
          ∀ f ∈ Format.selected tags, HasBytes root c f) ∧
      (∀ d' paths, write d here root directory tags c = (d', .ok paths) →
        paths = pathsIn directory (Format.selected tags) ∧
          Written d d' here directory (Format.selected tags) fun f => f.text root c) ∧
      ∀ before f after, Format.selected tags = before ++ f :: after →
        (∀ g ∈ before, HasBytes root c g) → ¬ HasBytes root c f →
        Takes d here directory (before ++ [f]) →
        ∃ d', write d here root directory tags c = (d', .error .encoding) ∧
          Written d d' here directory (before ++ [f])
            fun g => if g = f then "" else g.text root c) := by
  constructor
  · intro some
    obtain ⟨before, t, after, rfl, known, unknown⟩ := Format.exists_first_unknown some
    refine ⟨before, t, after, rfl, known, unknown, ?_⟩
    rw [write, Format.ofTags_refused known unknown]
  · intro known
    have run : write d here root directory tags c =
        writeFormats here root directory c d (Format.selected tags) := by
      rw [write, Format.ofTags_eq_selected known]
    rw [run]
    refine ⟨⟨fun ⟨d', paths, h⟩ => takes_of_writeFormats h, fun ⟨takes, whole⟩ => ?_⟩,
      fun d' paths h => ?_, fun before f after split whole halved takes => ?_⟩
    · obtain ⟨d', h, -⟩ := writeFormats_of_takes takes whole
      exact ⟨d', _, h⟩
    · obtain ⟨takes, whole⟩ := takes_of_writeFormats h
      obtain ⟨d₂, h₂, written⟩ := writeFormats_of_takes takes whole
      have same := h.symm.trans h₂
      rw [Prod.mk.injEq, Except.ok.injEq] at same
      obtain ⟨rfl, rfl⟩ := same
      exact ⟨rfl, written⟩
    · have once : f ∉ before := by
        have nodup := Format.selected_nodup tags
        rw [split] at nodup
        exact fun mem => List.disjoint_of_nodup_append nodup mem List.mem_cons_self
      rw [split]
      exact writeFormats_stops _ _ takes whole halved once

end Halves

/-! ### Outputs on a blank disk -/

/-- A directory on a blank disk takes all formats. -/
theorem takes_blank {above : Place} (folder : Disk.namesFrom [] directory = above)
    (proper : ∀ n ∈ above, Path.Proper n) (formats : List Format) :
    Takes Disk.blank [] directory formats := by
  have named : ∀ f ∈ formats,
      Disk.Names Disk.blank [] (pathIn directory f.fileName) above f.fileName := fun f _ =>
    ⟨by rw [namesFrom_pathIn, folder],
      List.forall_mem_append.mpr ⟨fun n hn => (proper n hn).not_climbing,
        List.forall_mem_singleton.mpr f.proper_fileName.not_climbing⟩, rfl⟩
  refine takes_of_writable named fun f _ => ⟨fun {p e} _ _ there => ?_, fun there => ?_⟩
  · cases p with
    | nil =>
      cases there
      rfl
    | cons n p => cases there
  · cases above <;> cases there

/-- Nothing is on the disk, not even the directory. -/
theorem write_selected_nested : ∃ d' : Disk,
    write Disk.blank [] none "/env-docs/nested" ["all", "env"] ⟨[], {}, "", none⟩ =
      (d', .ok ["/env-docs/nested/.env.example", "/env-docs/nested/schema.json",
        "/env-docs/nested/README.md"]) := by
  have known : ∀ t ∈ ["all", "env"], Format.IsTag t :=
    List.forall_mem_cons.mpr ⟨.inl rfl, by simpa using .inr ⟨.env, rfl⟩⟩
  have exactly := (write_selected_exactly Disk.blank [] none "/env-docs/nested" ["all", "env"]
    ⟨[], {}, "", none⟩).2 known
  have selected : Format.selected ["all", "env"] = [.env, .json, .md] := by decide
  have whole : ∀ f ∈ [Format.env, .json, .md], HasBytes none ⟨[], {}, "", none⟩ f := by
    intro f _
    cases f <;> (rw [HasBytes]; decide +kernel)
  have takes : Takes Disk.blank [] "/env-docs/nested" [.env, .json, .md] :=
    takes_blank (by decide : Disk.namesFrom [] "/env-docs/nested" = ["env-docs", "nested"])
      (by decide) _
  rw [selected] at exactly
  obtain ⟨d', paths, run⟩ := exactly.1.mpr ⟨takes, whole⟩
  obtain ⟨rfl, -⟩ := exactly.2.1 d' paths run
  exact ⟨d', run⟩

/-- A result with one variable, whose default is the first half of a character. -/
def halvedCensus : Census where
  findings := [{
    name := "TITLE"
    source := .process
    files := [⟨"/app.js", 1, 11, none, none⟩]
    required := false
    defaultValue := some (String.singleton (Text.charOfUnit 0xD83D)) }]
  tally := {}
  scannedAt := "2024-01-01T00:00:00+00:00"
  framework := none

/-- The directory takes the report of this result, but the text has no bytes: an empty file is left
behind. -/
theorem halvedDefault_not_written : Takes Disk.blank [] "/env-docs" [.env] ∧
    ∃ d' w, write Disk.blank [] none "/env-docs" ["env"] halvedCensus = (d', .error .encoding) ∧
      Leads d' [] "/env-docs" .env w ∧ d'.at? w = some (.file []) := by
  have takes : Takes Disk.blank [] "/env-docs" [.env] :=
    takes_blank (by decide : Disk.namesFrom [] "/env-docs" = ["env-docs"]) (by decide) _
  have halved : Text.isWhole (Format.env.text none halvedCensus).toList = false := by
    decide +kernel
  obtain ⟨d', run, written⟩ :=
    writeFormats_stops [] [] takes (by simp) (Bool.eq_false_iff.mp halved) (by simp)
  obtain ⟨w, leads⟩ := written.leads .env (by simp)
  have only : [Format.env] = [] ++ .env :: [] := rfl
  exact ⟨takes, d', w, run, leads, Written.files written only leads (by simp)⟩

end EnvCensus.Report
