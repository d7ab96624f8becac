import EnvCensus.Proofs.Dotenv.Reading
import EnvCensus.Proofs.Path
import EnvCensus.Proofs.Report.Value
import EnvCensus.Proofs.Text.Breaking

/-!
# Example declaration files that are read again

What is read in the report on a scan comes from the findings, one after the
other, the required ones first. A finding is read as one entry unless a text
that the report takes over from it goes on, on a line of its own, with a
declaration.
-/

namespace EnvCensus.Report.EnvExample

open Dotenv Text

variable {root : Option Disk.Place} {c : Census} {f : Finding}

/-- The findings in the order of the report. -/
def inReportOrder (c : Census) : List Finding :=
  c.findings.filter (·.required) ++ c.findings.filter (!·.required)

theorem mem_inReportOrder : f ∈ inReportOrder c ↔ f ∈ c.findings := by
  simp only [inReportOrder, List.mem_append, List.mem_filter]
  cases f.required <;> simp

theorem inReportOrder_perm (c : Census) : (inReportOrder c).Perm c.findings :=
  List.filter_append_perm _ _

/-! ### What is read in the report -/

/-- A comment declares what the text after its label does beyond its first line. -/
theorem read_labelled {label : String} (hash : label.toList.head? = some '#')
    (line : Unbroken label.toList) (s : String) :
    read (label ++ s).toList = readFurther s.toList := by
  have ne : label.toList ≠ [] := by
    intro none
    rw [none] at hash
    cases hash
  rw [String.toList_append, read_comment (by rw [List.head?_append_of_ne_nil _ ne, hash]),
    readFurther_append line ne]

theorem read_withoutFeeds (s : String) : read (withoutFeeds s ++ "\n").toList = read s.toList := by
  have spelled : (withoutFeeds s ++ "\n").toList =
      (s.toList.reverse.dropWhile (· == '\n')).reverse ++ ['\n'] := by
    rw [withoutFeeds, String.toList_append, String.toList_ofList]
    rfl
  rw [spelled, read_feed_end, read_dropWhile, List.reverse_reverse]

/-- What is read in the lines of a finding: what the notes and the places declare beyond their first
lines, and the declaration. -/
theorem read_entryLines (root : Option Disk.Place) (f : Finding) :
    (entryLines root f).flatMap (fun l => read l.toList) =
      f.notes.flatMap (fun note => readFurther note.toList) ++
        readFurther (usedIn root f.files).toList ++
        read (f.name ++ "=" ++ valueText (f.defaultValue.getD "")).toList := by
  have notes : (f.notes.map ("# " ++ ·)).flatMap (fun l => read l.toList) =
      f.notes.flatMap fun note => readFurther note.toList := by
    rw [List.flatMap_map]
    exact List.flatMap_congr fun note _ => read_labelled rfl (by decide) note
  have exposed : (if f.isPublic then ["# Public: exposed to client-side code"] else []).flatMap
      (fun l => read l.toList) = [] := by
    split
    · rw [List.flatMap_singleton, read_comment rfl, readFurther_unbroken (by decide)]
    · rfl
  have places : read (usedIn root f.files).toList = readFurther (usedIn root f.files).toList :=
    read_comment (by simp [usedIn])
  rw [entryLines, List.flatMap_append, List.flatMap_append, notes, exposed, List.append_nil,
    List.flatMap_cons, List.flatMap_singleton, places, List.append_assoc]

theorem read_groupLines (root : Option Disk.Place) {title : String} (line : Unbroken title.toList)
    (fs : List Finding) :
    (groupLines root title fs).flatMap (fun l => read l.toList) =
      fs.flatMap fun f => (entryLines root f).flatMap fun l => read l.toList := by
  have head : read s!"# ---- {title} ----".toList = [] := by
    have spelled : s!"# ---- {title} ----" = "# ---- " ++ (title ++ " ----") := by
      rw [← String.append_assoc]
      rfl
    rw [spelled, read_labelled rfl (by decide), String.toList_append]
    exact readFurther_unbroken (unbroken_append.mpr ⟨line, by decide⟩)
  have parted : ∀ f, (entryLines root f ++ [""]).flatMap (fun l => read l.toList) =
      (entryLines root f).flatMap fun l => read l.toList := by
    intro f
    rw [List.flatMap_append, List.flatMap_singleton, String.toList_empty, read_nil,
      List.append_nil]
  rw [groupLines]
  split
  · rename_i none
    rw [List.isEmpty_iff.mp none]
    rfl
  · rw [List.flatMap_append, List.flatMap_cons, head, List.flatMap_singleton, String.toList_empty,
      read_nil, List.nil_append, List.nil_append, List.flatMap_assoc]
    exact List.flatMap_congr fun f _ => parted f

/-- What is read in the report, finding by finding. -/
theorem read_text (root : Option Disk.Place) (c : Census) :
    read (text root c).toList = readFurther c.scannedAt.toList ++
      (inReportOrder c).flatMap fun f => (entryLines root f).flatMap fun l => read l.toList := by
  have generated : read s!"# Generated by envaudit on {c.scannedAt}".toList =
      readFurther c.scannedAt.toList := read_labelled rfl (by decide) c.scannedAt
  have title : read "# Environment variables".toList = [] := by
    rw [read_comment rfl, readFurther_unbroken (by decide)]
  simp only [text, read_withoutFeeds, read_intercalate, List.flatMap_append, List.flatMap_cons,
    List.flatMap_nil, title, generated, String.toList_empty, read_nil, List.nil_append,
    List.append_nil, List.append_assoc, inReportOrder]
  rw [read_groupLines root (by decide), read_groupLines root (by decide)]

/-! ### Reports without surprises -/

/-- Every text that the report takes over stands on one line, and no default has a character to
escape. -/
structure Plain (root : Option Disk.Place) (c : Census) : Prop where
  time : Unbroken c.scannedAt.toList
  names : ∀ f ∈ c.findings, Name.Exact f.name
  notes : ∀ f ∈ c.findings, ∀ note ∈ f.notes, Unbroken note.toList
  places : ∀ f ∈ c.findings, ∀ r ∈ f.files.take listedLocations,
    Unbroken (location root r).toList
  defaults : ∀ f ∈ c.findings, ∀ d ∈ f.defaultValue, Unbroken d.toList ∧
    (needsQuotes d.toList = true → '"' ∉ d.toList ∧ '\\' ∉ d.toList)

/-- The default of a finding, unless it only holds the place of one. -/
def declaredValue (f : Finding) : Option String :=
  f.defaultValue.filter fun d => d ≠ "" && !isPlaceholder d

theorem unbroken_intercalate {separator : String} (line : Unbroken separator.toList)
    {texts : List String} (lines : ∀ s ∈ texts, Unbroken s.toList) :
    Unbroken (separator.intercalate texts).toList := by
  induction texts with
  | nil => simp [Unbroken]
  | cons s texts ih =>
    obtain ⟨first, others⟩ := List.forall_mem_cons.mp lines
    cases texts with
    | nil => rwa [String.intercalate_singleton]
    | cons t texts =>
      rw [String.intercalate_cons_cons, String.toList_append, String.toList_append]
      exact unbroken_append.mpr ⟨unbroken_append.mpr ⟨first, line⟩, ih others⟩

theorem unbroken_toString (n : Nat) : Unbroken (toString n).toList :=
  Breaking.whole_toString (b := .boundaries) n

/-- The place of a reference stands on one line when the path of it does. -/
theorem unbroken_location {r : FileRef} (line : Unbroken r.path.toList) :
    Unbroken (location root r).toList := by
  have shown : Unbroken (shownPath root r.path).toList := by
    rw [shownPath]
    split
    · rename_i names below
      obtain ⟨place, -, below⟩ := Option.bind_eq_some_iff.mp below
      rw [Path.below?] at below
      split at below
      · cases below
        have segments : ∀ n ∈ (Path.parse r.path).segments.drop place.length,
            Unbroken n.toList := fun n hn c hc =>
          line c (Path.mem_of_mem_segments (List.mem_of_mem_drop hn) hc)
        rw [Path.render]
        split
        · decide
        · rw [String.toList_append]
          exact unbroken_append.mpr
            ⟨List.forall_mem_nil _, unbroken_intercalate (by decide) segments⟩
      · cases below
    · exact line
  have parts : location root r = shownPath root r.path ++ ":" ++ toString r.line := rfl
  rw [parts, String.toList_append, String.toList_append]
  exact unbroken_append.mpr
    ⟨unbroken_append.mpr ⟨shown, by decide⟩, unbroken_toString r.line⟩

/-- The list of the places stands on one line when the places do. -/
theorem unbroken_usedIn {refs : List FileRef}
    (places : ∀ r ∈ refs.take listedLocations, Unbroken (location root r).toList) :
    Unbroken (usedIn root refs).toList := by
  have listed : Unbroken (", ".intercalate ((refs.take listedLocations).map (location root))).toList :=
    unbroken_intercalate (by decide) (List.forall_mem_map.mpr places)
  have head : Unbroken "# Used in: ".toList := by decide
  rw [usedIn, String.toList_append, String.toList_append]
  refine unbroken_append.mpr ⟨unbroken_append.mpr ⟨head, listed⟩, ?_⟩
  split
  · have parts : s!" (+{refs.length - ((refs.take listedLocations).map (location root)).length} more)" =
        " (+" ++ toString (refs.length - ((refs.take listedLocations).map (location root)).length) ++
          " more)" := rfl
    rw [parts, String.toList_append, String.toList_append]
    exact unbroken_append.mpr
      ⟨unbroken_append.mpr ⟨by decide, unbroken_toString _⟩, by decide⟩
  · decide

/-- The declaration of a finding is read as what it was written for. -/
theorem read_declaration (exact : Name.Exact f.name)
    (plain : ∀ d ∈ f.defaultValue, Unbroken d.toList ∧
      (needsQuotes d.toList = true → '"' ∉ d.toList ∧ '\\' ∉ d.toList)) :
    read (f.name ++ "=" ++ valueText (f.defaultValue.getD "")).toList =
      [{ name := f.name, value := declaredValue f }] := by
  have default : Unbroken (f.defaultValue.getD "").toList ∧
      reread (f.defaultValue.getD "") = f.defaultValue.getD "" := by
    cases h : f.defaultValue with
    | none => decide
    | some d => exact (plain d h).imp_right reread_eq_self_iff.mpr
  have line : Unbroken (f.name ++ "=" ++ valueText (f.defaultValue.getD "")).toList := by
    rw [String.toList_append, String.toList_append]
    exact unbroken_append.mpr
      ⟨unbroken_append.mpr ⟨fun c hc => isLineBreak_of_isTail (exact.isTail hc), by decide⟩,
        unbroken_valueText default.1⟩
  rw [read_unbroken line (by simp), parseLine_valueText exact default.1 default.2,
    declaredValue]
  cases f.defaultValue with
  | none => rfl
  | some d =>
    by_cases held : d = "" ∨ isPlaceholder d = true
    · rcases held with rfl | held
      · rfl
      · simp [held, Option.filter]
    · obtain ⟨nonempty, real⟩ := not_or.mp held
      simp [nonempty, real, Option.filter]

/-- A report into which only single lines are taken over is read as one entry for each finding, the
required ones first: with the name of the finding, its default if it has a real one, and no comment.
The entries come in the order of their lines. -/
theorem parse_text (plain : Plain root c) :
    (parse (text root c)).map (fun e => (e.name, e.value, e.comment)) =
        (inReportOrder c).map (fun f => (f.name, declaredValue f, none)) ∧
      ((parse (text root c)).map (·.line)).Pairwise (· < ·) := by
  have each : ∀ f ∈ inReportOrder c, (entryLines root f).flatMap (fun l => read l.toList) =
      [{ name := f.name, value := declaredValue f }] := by
    intro f hf
    have mem := mem_inReportOrder.mp hf
    have notes : f.notes.flatMap (fun note => readFurther note.toList) = [] :=
      List.flatMap_eq_nil_iff.mpr fun note hnote => readFurther_unbroken (plain.notes f mem note hnote)
    rw [read_entryLines, notes, readFurther_unbroken (unbroken_usedIn (plain.places f mem)),
      read_declaration (plain.names f mem) (plain.defaults f mem)]
    rfl
  have read_eq : read (text root c).toList =
      (inReportOrder c).map fun f => { name := f.name, value := declaredValue f } := by
    rw [read_text, readFurther_unbroken plain.time, List.nil_append, List.flatMap_congr each,
      ← List.map_eq_flatMap]
  refine ⟨?_, parseLines_ordered 1 _⟩
  have unnumbered := congrArg (List.map fun e : Entry => (e.name, e.value, e.comment))
    ((parse_read (text root c)).trans read_eq)
  rw [List.map_map, List.map_map] at unnumbered
  exact unnumbered

/-- The result of a scan of a service: a title of two words that has a note, and an address that is
still to be filled in. -/
def serviceCensus : Census where
  findings := [
    { name := "TITLE", source := .process, files := [⟨"/p/app.js", 1, 11, none, none⟩]
      required := false, defaultValue := some "My app", notes := ["shown in the header"] },
    { name := "API_URL", source := .dotenv, files := [⟨"/p/.env", 1, 1, none, none⟩]
      defaultValue := some "change_me" }]
  tally := {}
  scannedAt := "now"

/-- The required address is read first, without a value, and then the title with its own. -/
theorem parse_text_service : Plain (some ["p"]) serviceCensus ∧
    ((parse (text (some ["p"]) serviceCensus)).map (fun e => (e.name, e.value, e.comment)) =
        [("API_URL", none, none), ("TITLE", some "My app", none)] ∧
      ((parse (text (some ["p"]) serviceCensus)).map (·.line)).Pairwise (· < ·)) := by
  have plain : Plain (some ["p"]) serviceCensus :=
    { time := by decide
      names := by decide
      notes := by decide
      places := by decide +kernel
      defaults := by decide }
  exact ⟨plain, parse_text plain⟩

/-! ### Texts that declare more -/

/-- The text declares nothing on the lines that it goes on with. -/
def Quiet (s : String) : Prop := ∀ line ∈ (lines s.toList).tail, parseLine line = none

theorem quiet_iff {s : String} : Quiet s ↔ readFurther s.toList = [] :=
  List.filterMap_eq_nil_iff.symm

/-- The finding has an exact name, and nothing that the report takes over from it declares anything
else. -/
structure DeclaresItself (root : Option Disk.Place) (f : Finding) : Prop where
  name : Name.Exact f.name
  notes : ∀ note ∈ f.notes, Quiet note
  places : Quiet (usedIn root f.files)
  value : Quiet (valueText (f.defaultValue.getD ""))

/-- What is read in the lines of a finding with an exact name: one entry for the finding, and what
is declared besides. -/
theorem read_entryLines_of_exact (root : Option Disk.Place) (exact : Name.Exact f.name) :
    ∃ e, e.name = f.name ∧ (entryLines root f).flatMap (fun l => read l.toList) =
      f.notes.flatMap (fun note => readFurther note.toList) ++
        readFurther (usedIn root f.files).toList ++
        e :: readFurther (valueText (f.defaultValue.getD "")).toList := by
  obtain ⟨e, named, declared⟩ := read_binding exact (valueText (f.defaultValue.getD "")).toList
  have spelled : (f.name ++ "=" ++ valueText (f.defaultValue.getD "")).toList =
      f.name.toList ++ '=' :: (valueText (f.defaultValue.getD "")).toList := by simp
  exact ⟨e, named, by rw [read_entryLines, spelled, declared]⟩

theorem names_parse (s : String) :
    (parse s).map (·.name) = (read s.toList).map (·.name) := by
  rw [← parse_read, List.map_map]
  rfl

/-- Whatever else a report declares, the findings with exact names are declared in order. -/
theorem exact_names_sublist (root : Option Disk.Place) (c : Census) :
    (((inReportOrder c).filter fun f => Name.Exact f.name).map (·.name)).Sublist
      ((parse (text root c)).map (·.name)) := by
  rw [names_parse, read_text, List.map_append]
  refine .trans ?_ (List.sublist_append_right _ _)
  induction inReportOrder c with
  | nil => exact .slnil
  | cons f fs ih =>
    rw [List.flatMap_cons, List.map_append]
    by_cases exact : Name.Exact f.name
    · obtain ⟨e, named, block⟩ := read_entryLines_of_exact root exact
      have own : [f.name].Sublist
          (((entryLines root f).flatMap fun l => read l.toList).map (·.name)) := by
        rw [List.singleton_sublist, block, ← named]
        exact List.mem_map_of_mem (by simp)
      rw [List.filter_cons_of_pos (by simpa using exact)]
      exact own.append ih
    · rw [List.filter_cons_of_neg (by simpa using exact)]
      exact ih.trans (List.sublist_append_right _ _)

theorem DeclaresItself.names (h : DeclaresItself root f) :
    ((entryLines root f).flatMap fun l => read l.toList).map (·.name) = [f.name] := by
  obtain ⟨e, named, block⟩ := read_entryLines_of_exact root h.name
  have notes : f.notes.flatMap (fun note => readFurther note.toList) = [] :=
    List.flatMap_eq_nil_iff.mpr fun note hnote => quiet_iff.mp (h.notes note hnote)
  rw [block, notes, quiet_iff.mp h.places, quiet_iff.mp h.value, ← named]
  rfl

/-- A finding that is read as one entry declares nothing else. -/
theorem declaresItself_of_length (exact : Name.Exact f.name)
    (one : ((entryLines root f).flatMap fun l => read l.toList).length = 1) :
    DeclaresItself root f := by
  obtain ⟨e, -, block⟩ := read_entryLines_of_exact root exact
  rw [block] at one
  simp only [List.length_append, List.length_cons] at one
  have notes : f.notes.flatMap (fun note => readFurther note.toList) = [] :=
    List.length_eq_zero_iff.mp (by omega)
  refine ⟨exact, fun note hnote => ?_, ?_, ?_⟩
  · exact quiet_iff.mpr (List.flatMap_eq_nil_iff.mp notes note hnote)
  · exact quiet_iff.mpr (List.length_eq_zero_iff.mp (by omega))
  · exact quiet_iff.mpr (List.length_eq_zero_iff.mp (by omega))

/-- Blocks that are not empty have no more elements than there are blocks only if each of them has
one, and there are no others. -/
theorem length_of_flatMap {α β : Type} {front : List β} {g : α → List β} {xs : List α}
    (some : ∀ x ∈ xs, g x ≠ []) (few : (front ++ xs.flatMap g).length ≤ xs.length) :
    front = [] ∧ ∀ x ∈ xs, (g x).length = 1 := by
  induction xs generalizing front with
  | nil => exact ⟨List.length_eq_zero_iff.mp (by simpa using few), by simp⟩
  | cons x xs ih =>
    obtain ⟨first, others⟩ := List.forall_mem_cons.mp some
    cases block : g x with
    | nil => exact absurd block first
    | cons b bs =>
      -- one member stands for this element, and what it has beyond that joins the front
      have fewer : ((front ++ bs) ++ xs.flatMap g).length ≤ xs.length := by
        rw [List.flatMap_cons, block] at few
        simp only [List.length_append, List.length_cons] at few ⊢
        omega
      obtain ⟨none, one⟩ := ih others fewer
      obtain ⟨rfl, rfl⟩ := List.append_eq_nil_iff.mp none
      exact ⟨rfl, List.forall_mem_cons.mpr ⟨by rw [block]; rfl, one⟩⟩

/-- The names that are read in a report are those of the findings, the required ones first, just
when no text that the report takes over declares anything and the names are exact. -/
theorem names_text_iff (root : Option Disk.Place) (c : Census) :
    (parse (text root c)).map (·.name) = (inReportOrder c).map (·.name) ↔
      Quiet c.scannedAt ∧ ∀ f ∈ c.findings, DeclaresItself root f := by
  have unnumbered := names_parse (text root c)
  constructor
  · intro same
    have exact : ∀ f ∈ inReportOrder c, Name.Exact f.name := by
      intro f hf
      have named : f.name ∈ (parse (text root c)).map (·.name) := same ▸ List.mem_map_of_mem hf
      obtain ⟨e, he, e_name⟩ := List.mem_map.mp named
      exact e_name ▸ (parseLines_named e he).1
    have some : ∀ f ∈ inReportOrder c, ((entryLines root f).flatMap fun l => read l.toList) ≠ [] := by
      intro f hf
      obtain ⟨e, -, block⟩ := read_entryLines_of_exact root (exact f hf)
      rw [block]
      simp
    have few := congrArg List.length (unnumbered.symm.trans same)
    rw [List.length_map, List.length_map, read_text] at few
    obtain ⟨front, one⟩ := length_of_flatMap some few.le
    refine ⟨quiet_iff.mpr front, fun f hf => ?_⟩
    have hf := mem_inReportOrder.mpr hf
    exact declaresItself_of_length (exact f hf) (one f hf)
  · rintro ⟨time, quiet⟩
    rw [unnumbered, read_text, quiet_iff.mp time, List.nil_append, List.map_flatMap,
      List.flatMap_congr fun f hf => (quiet f (mem_inReportOrder.mp hf)).names, ← List.map_eq_flatMap]

end EnvCensus.Report.EnvExample
