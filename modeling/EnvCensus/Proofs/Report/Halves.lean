import EnvCensus.Proofs.Census
import EnvCensus.Proofs.Report.EnvExample
import EnvCensus.Proofs.Report.Terminal
import EnvCensus.Report.Format

/-!
# Reports without halves

A result in exchange has bytes just when all texts in it have, and an example
declaration file only when the defaults and the notes that it takes over have.
-/

namespace EnvCensus

open Text (Whole Halves LawfulHalves)

/-! ### Structured text -/

namespace Json

mutual

/-- The texts that stand in the notation of a value, beside its signs and whole numbers. -/
def texts : Json → List String
  | float x => [String.ofList x.text]
  | text s => [s]
  | list vs => itemTexts vs
  | object fs => fieldTexts fs
  | _ => []

def itemTexts : List Json → List String
  | [] => []
  | v :: vs => texts v ++ itemTexts vs

def fieldTexts : List (String × Json) → List String
  | [] => []
  | (k, v) :: fs => k :: texts v ++ fieldTexts fs

end

/-- The texts of the value have no halves. -/
def IsWhole [Halves] (v : Json) : Prop := ∀ s ∈ v.texts, Whole s.toList

theorem isWhole_text [Halves] {s : String} : (text s).IsWhole ↔ Whole s.toList := by
  simp [IsWhole, texts]

theorem isWhole_list [Halves] {vs : List Json} : (list vs).IsWhole ↔ ∀ v ∈ vs, v.IsWhole := by
  induction vs with
  | nil => simp [IsWhole, texts, itemTexts]
  | cons v vs ih =>
    have first : (list (v :: vs)).IsWhole ↔ v.IsWhole ∧ (list vs).IsWhole := List.forall_mem_append
    rw [first, ih, List.forall_mem_cons]

theorem isWhole_object [Halves] {fs : List (String × Json)} :
    (object fs).IsWhole ↔ ∀ f ∈ fs, Whole f.1.toList ∧ f.2.IsWhole := by
  induction fs with
  | nil => simp [IsWhole, texts, fieldTexts]
  | cons f fs ih =>
    have first : (object (f :: fs)).IsWhole ↔
        Whole f.1.toList ∧ f.2.IsWhole ∧ (object fs).IsWhole := by
      simp only [IsWhole, texts, fieldTexts, List.cons_append, List.forall_mem_cons,
        List.forall_mem_append]
    rw [first, ih, List.forall_mem_cons, and_assoc]

theorem isWhole_int [Halves] {n : Int} : (int n).IsWhole := nofun

theorem isWhole_bool [Halves] {b : Bool} : (bool b).IsWhole := nofun

section

variable [Halves] [LawfulHalves]

theorem whole_hexDigits (width n : Nat) : Whole (Text.hexDigits width n) := by
  have digit : ∀ k < 16, Text.isSpare (Nat.digitChar k) = false := by decide
  induction width generalizing n with
  | zero => exact Text.whole_nil
  | succ width ih =>
    exact Text.whole_append.mpr ⟨ih _, Text.whole_cons.mpr
      ⟨Text.isHalf_eq_false (digit _ (Nat.mod_lt n (by decide))), Text.whole_nil⟩⟩

/-- An escape has no halves, and only characters that are no halves are escaped. -/
theorem whole_escaped {c : Char} : Whole (escaped c) ↔ Halves.isHalf c = false := by
  by_cases spare : Text.isSpare c = true
  · have high : 0x10F000 ≤ c.toNat := by
      rw [Text.isSpare, Bool.and_eq_true] at spare
      exact of_decide_eq_true spare.1
    have other {d : Char} (low : d.toNat < 0x10F000) : (c == d) = false := by
      refine beq_false_of_ne fun e => ?_
      rw [e] at high
      omega
    have alone : escaped c = [c] := by
      have large : ¬ c.toNat < 32 := by omega
      simp [escaped, other, large]
    simp [alone]
  · have plain := Text.isHalf_eq_false (Bool.not_eq_true _ ▸ spare : Text.isSpare c = false)
    refine ⟨fun _ => plain, fun _ => ?_⟩
    have padded (n : Nat) : Whole (hexPadded n) :=
      Text.whole_cons.mpr ⟨Text.isHalf_eq_false (by decide),
        Text.whole_cons.mpr ⟨Text.isHalf_eq_false (by decide), whole_hexDigits 4 n⟩⟩
    unfold escaped
    repeat' split
    all_goals first
      | exact Text.whole_of_all (by decide)
      | exact padded _
      | exact Text.whole_cons.mpr ⟨plain, Text.whole_nil⟩

theorem whole_quoted {s : String} : Whole (quoted s).toList ↔ Whole s.toList := by
  have quote : Halves.isHalf '"' = false := Text.isHalf_eq_false (by decide)
  rw [quoted, String.toList_ofList]
  simp only [List.cons_append, Text.whole_cons, Text.whole_append, Text.whole_flatMap,
    whole_escaped, quote, Text.whole_nil, true_and, and_true]
  rfl

theorem whole_newline (depth : Nat) : Whole (newline depth).toList := by
  have blanks : Whole (String.ofList (List.replicate (2 * depth) ' ')).toList := by
    rw [String.toList_ofList]
    exact Text.whole_replicate _ (by decide)
  rw [newline, String.toList_append, Text.whole_append]
  exact ⟨Text.whole_of_all (by decide), blanks⟩

/-- Items on lines of their own, between signs. -/
theorem whole_enclosed {left right : String} (depth : Nat) {items : List String}
    (front : Whole left.toList) (back : Whole right.toList) :
    Whole (left ++ newline (depth + 1) ++ ("," ++ newline (depth + 1)).intercalate items ++
      newline depth ++ right).toList ↔ ∀ s ∈ items, Whole s.toList := by
  have between : Whole ("," ++ newline (depth + 1)).toList := by
    rw [String.toList_append, Text.whole_append]
    exact ⟨Text.whole_of_all (by decide), whole_newline _⟩
  simp only [String.toList_append, Text.whole_append, Text.whole_intercalate between, front, back,
    whole_newline, true_and, and_true]

end

mutual

/-- The notation of a value has no halves just when its texts have none. -/
theorem whole_renderAt [Halves] [LawfulHalves] (depth : Nat) : ∀ v : Json,
    Whole (renderAt depth v).toList ↔ ∀ s ∈ v.texts, Whole s.toList
  | null => iff_of_true (Text.whole_of_all (by decide) : Whole "null".toList) nofun
  | bool true => iff_of_true (Text.whole_of_all (by decide) : Whole "true".toList) nofun
  | bool false => iff_of_true (Text.whole_of_all (by decide) : Whole "false".toList) nofun
  | int n => iff_of_true (Text.whole_int n) nofun
  | float x => by simp [renderAt, texts]
  | text s => by simp [renderAt, texts, whole_quoted]
  | list [] => iff_of_true (Text.whole_of_all (by decide) : Whole "[]".toList) nofun
  | list (v :: vs) => by
    rw [renderAt, texts, ← whole_renderItems (depth + 1) (v :: vs)]
    exact whole_enclosed depth (Text.whole_of_all (by decide)) (Text.whole_of_all (by decide))
  | object [] => iff_of_true (Text.whole_of_all (by decide) : Whole "\x7b\x7d".toList) nofun
  | object (f :: fs) => by
    rw [renderAt, texts, ← whole_renderFields (depth + 1) (f :: fs), Value.braced]
    simp only [← String.append_assoc]
    exact whole_enclosed depth (Text.whole_of_all (by decide)) (Text.whole_of_all (by decide))

theorem whole_renderItems [Halves] [LawfulHalves] (depth : Nat) : ∀ vs : List Json,
    (∀ s ∈ renderItems depth vs, Whole s.toList) ↔ ∀ s ∈ itemTexts vs, Whole s.toList
  | [] => by simp [renderItems, itemTexts]
  | v :: vs => by
    rw [renderItems, itemTexts, List.forall_mem_cons, List.forall_mem_append,
      whole_renderAt depth v, whole_renderItems depth vs]

theorem whole_renderFields [Halves] [LawfulHalves] (depth : Nat) : ∀ fs : List (String × Json),
    (∀ s ∈ renderFields depth fs, Whole s.toList) ↔ ∀ s ∈ fieldTexts fs, Whole s.toList
  | [] => by simp [renderFields, fieldTexts]
  | (k, v) :: fs => by
    rw [renderFields, fieldTexts, List.forall_mem_cons, List.cons_append, List.forall_mem_cons,
      List.forall_mem_append, whole_renderFields depth fs, ← whole_renderAt depth v]
    have colon : Whole ": ".toList := Text.whole_of_all (by decide)
    simp only [String.toList_append, Text.whole_append, whole_quoted, colon, and_true, and_assoc]

end

end Json

/-! ### Results in exchange -/

namespace Census

variable [Halves] [LawfulHalves] {c c' : Census} {target : String}

/-- None of the texts of a reference has halves. -/
structure RefWhole (r : FileRef) : Prop where
  path : Whole r.path.toList
  context : ∀ c ∈ r.context, Whole c.toList
  hint : ∀ h ∈ r.hint, Whole h.toList

/-- None of the texts of a finding has halves. -/
structure FindingWhole (f : Finding) : Prop where
  name : Whole f.name.toList
  defaultValue : ∀ d ∈ f.defaultValue, Whole d.toList
  notes : ∀ note ∈ f.notes, Whole note.toList
  files : ∀ r ∈ f.files, RefWhole r

omit [Halves] [LawfulHalves] in
theorem forall_mem_optional {α β : Type} {P : β → Prop} {form : α → β} {o : Option α} :
    (∀ b ∈ (o.map form).toList, P b) ↔ ∀ a ∈ o, P (form a) := by
  cases o <;> simp

/-- The keys of the notation have no halves. -/
theorem key_whole {k : String} (h : (k.toList.all fun c => !Text.isSpare c) = true) :
    Whole k.toList := Text.whole_of_all h

theorem isWhole_ref {r : FileRef} : r.toJson.IsWhole ↔ RefWhole r := by
  have fields : r.toJson.IsWhole ↔ (Whole r.path.toList ∧ ∀ c ∈ r.context, Whole c.toList) ∧
      ∀ h ∈ r.hint, Whole h.toList := by
    simp (disch := decide) only [FileRef.toJson, Json.isWhole_object, List.forall_mem_append,
      List.forall_mem_cons, forall_mem_optional, Json.isWhole_text, Json.isWhole_int, key_whole,
      List.not_mem_nil, false_implies, implies_true, true_and, and_true]
  exact fields.trans ⟨fun ⟨⟨p, c⟩, h⟩ => ⟨p, c, h⟩, fun h => ⟨⟨h.path, h.context⟩, h.hint⟩⟩

theorem isWhole_finding {f : Finding} : f.toJson.IsWhole ↔ FindingWhole f := by
  have source : Whole f.source.tag.toList := by
    cases f.source <;> exact key_whole (by decide)
  have notes : (∀ e ∈ (if f.notes.isEmpty = true then [] else
      [("notes", Json.list (f.notes.map .text))]), Whole e.1.toList ∧ e.2.IsWhole) ↔
        ∀ note ∈ f.notes, Whole note.toList := by
    cases f.notes with
    | nil => simp
    | cons n ns =>
      simp (disch := decide) only [List.isEmpty_cons, Bool.false_eq_true, if_false,
        List.forall_mem_singleton, key_whole, Json.isWhole_list, List.forall_mem_map,
        Json.isWhole_text, true_and]
  have fields : f.toJson.IsWhole ↔
      ((Whole f.name.toList ∧ ∀ r ∈ f.files, RefWhole r) ∧ ∀ d ∈ f.defaultValue, Whole d.toList) ∧
        ∀ note ∈ f.notes, Whole note.toList := by
    simp (disch := decide) only [Finding.toJson, Json.isWhole_object, List.forall_mem_append,
      List.forall_mem_cons, forall_mem_optional, notes, Json.isWhole_text, Json.isWhole_bool,
      Json.isWhole_list, List.forall_mem_map, isWhole_ref, source, key_whole, List.not_mem_nil,
      false_implies, implies_true, true_and, and_true]
  exact fields.trans ⟨fun ⟨⟨⟨n, r⟩, d⟩, t⟩ => ⟨n, d, t, r⟩,
    fun h => ⟨⟨⟨h.name, h.files⟩, h.defaultValue⟩, h.notes⟩⟩

/-- The names that the figures stand under have no halves. -/
def FiguresWhole (t : Tally) : Prop :=
  ∀ e ∈ t.bySource ++ t.filesByProvider ++ t.findingsByProvider, Whole e.1.toList

theorem isWhole_tally {t : Tally} (h : FiguresWhole t) : t.toJson.IsWhole := by
  have figures {fs : List (String × Int)} (names : ∀ e ∈ fs, Whole e.1.toList) :
      (Tally.figures fs).IsWhole := by
    rw [Tally.figures, Json.isWhole_object, List.forall_mem_map]
    exact fun e he => ⟨names e he, Json.isWhole_int⟩
  obtain ⟨sources, providers⟩ := List.forall_mem_append.mp h
  rw [Tally.toJson, Json.isWhole_object]
  simp only [List.forall_mem_cons]
  exact ⟨⟨key_whole (by decide), Json.isWhole_int⟩, ⟨key_whole (by decide), Json.isWhole_int⟩,
    ⟨key_whole (by decide), Json.isWhole_int⟩, ⟨key_whole (by decide), Json.isWhole_int⟩,
    ⟨key_whole (by decide), figures (List.forall_mem_append.mp sources).1⟩,
    ⟨key_whole (by decide), figures (List.forall_mem_append.mp sources).2⟩,
    ⟨key_whole (by decide), figures providers⟩, nofun⟩

/-- A result in exchange has bytes just when all its texts have. -/
theorem whole_jsonText_iff {c : Census} {target : String} (figures : FiguresWhole c.tally) :
    Whole (Report.jsonText target c).toList ↔
      Whole target.toList ∧ (∀ f ∈ c.findings, FindingWhole f) ∧ Whole c.scannedAt.toList ∧
        ∀ tag ∈ c.framework, Whole tag.toList := by
  have feed : Whole "\n".toList := key_whole (by decide)
  rw [Report.jsonText, String.toList_append, Text.whole_append, Json.render, Json.whole_renderAt]
  have fields : (Json.object (("target", .text target) :: c.fields)).IsWhole ↔
      Whole target.toList ∧ ((∀ f ∈ c.findings, FindingWhole f) ∧ Whole c.scannedAt.toList) ∧
        ∀ tag ∈ c.framework, Whole tag.toList := by
    simp (disch := decide) only [Census.fields, Json.isWhole_object, List.forall_mem_append,
      List.forall_mem_cons, forall_mem_optional, Json.isWhole_text, Json.isWhole_list,
      List.forall_mem_map, isWhole_finding, isWhole_tally figures, key_whole, List.not_mem_nil,
      false_implies, implies_true, true_and, and_true]
  refine (and_iff_left feed).trans (fields.trans ?_)
  rw [and_assoc]

/-- The figures of a scan with the built-in providers stand under the names of these. -/
theorem figures_of_ofFiles {d : Disk} {here : Disk.Place} {clock : Clock}
    {tag : Option String} {options : Options} {files : List String} {c : Census}
    (scanned : Census.ofFiles d here clock Registry.standard tag options files = .ok c) :
    FiguresWhole c.tally := by
  have names : ∀ n ∈ Registry.standard.names, Whole n.toList := by
    have plain : ∀ n ∈ Registry.standard.names,
        (n.toList.all fun c => !Text.isSpare c) = true := by decide
    exact fun n hn => key_whole (plain n hn)
  have provider : ∀ o ∈ outputs (shelfOf d here options) Registry.standard files options,
      Whole o.1.toList := by
    intro o ho
    obtain ⟨p, hp, rfl⟩ := List.mem_map.mp ho
    exact names _ (List.mem_map_of_mem (List.mem_of_mem_filter hp))
  have sources : ∀ e ∈ countBySource c.findings, Whole e.1.toList := by
    intro e he
    obtain ⟨s, hs⟩ := countBySource_tags _ e he
    rw [hs]
    cases s <;> exact key_whole (by decide)
  obtain ⟨findings, -, e⟩ := bind_eq_ok.mp scanned
  cases e
  exact List.forall_mem_append.mpr ⟨List.forall_mem_append.mpr
    ⟨sources, List.forall_mem_map.mpr provider⟩, List.forall_mem_map.mpr provider⟩

end Census

/-! ### Example declaration files -/

namespace Report.EnvExample

variable [Halves] [LawfulHalves] {root : Option Disk.Place} {c : Census}

theorem whole_of_withoutFeeds {s : String} (h : Whole (withoutFeeds s).toList) :
    Whole s.toList := by
  have split := List.takeWhile_append_dropWhile (p := (· == '\n')) (l := s.toList.reverse)
  have feeds : Whole (s.toList.reverse.takeWhile (· == '\n')) := by
    intro c hc
    have feed : c = '\n' := by simpa using List.mem_takeWhile_imp hc
    rw [feed]
    exact Text.isHalf_eq_false (by decide)
  rw [withoutFeeds, String.toList_ofList] at h
  have reversed : Whole s.toList.reverse := by
    rw [← split, Text.whole_append]
    exact ⟨feeds, h.of_subset (List.subset_reverse.mpr (List.Subset.refl _))⟩
  exact reversed.of_subset (List.subset_reverse.mpr (List.Subset.refl _))

omit [LawfulHalves] in
theorem whole_of_valueText {value : String} (h : Whole (valueText value).toList) :
    Whole value.toList := by
  unfold valueText at h
  split at h
  · rw [String.toList_ofList, List.cons_append, Text.whole_cons, Text.whole_append,
      Text.whole_flatMap] at h
    intro c hc
    have own := h.2.1 c hc
    unfold escaped at own
    split at own
    · exact (Text.whole_cons.mp (Text.whole_cons.mp own).2).1
    · exact (Text.whole_cons.mp own).1
  · exact h

/-- An example declaration file has bytes only when the defaults, the notes and the time that it
takes over have. -/
theorem whole_of_text (h : Whole (text root c).toList) :
    Whole c.scannedAt.toList ∧ ∀ f ∈ c.findings,
      Whole (f.defaultValue.getD "").toList ∧ ∀ note ∈ f.notes, Whole note.toList := by
  have feed : Whole "\n".toList := Text.whole_of_all (by decide)
  have group {title : String} {fs : List Finding} (shown : ∀ line ∈ groupLines root title fs,
      Whole line.toList) : ∀ f ∈ fs, ∀ line ∈ entryLines root f, Whole line.toList := by
    intro f hf line hline
    have some : fs.isEmpty = false := by
      cases fs with
      | nil => cases hf
      | cons => rfl
    rw [groupLines, some, if_neg Bool.false_ne_true] at shown
    exact shown line (List.mem_append_right _ (List.mem_flatMap.mpr
      ⟨f, hf, List.mem_append_left _ hline⟩))
  have entry {f : Finding} (shown : ∀ line ∈ entryLines root f, Whole line.toList) :
      Whole (f.defaultValue.getD "").toList ∧ ∀ note ∈ f.notes, Whole note.toList := by
    simp only [entryLines, List.forall_mem_append, List.forall_mem_map, List.forall_mem_cons,
      String.toList_append, Text.whole_append] at shown
    exact ⟨whole_of_valueText shown.2.2.1.2, fun note hn => (shown.1.1 note hn).2⟩
  rw [text, String.toList_append, Text.whole_append] at h
  have lines := (Text.whole_intercalate feed).mp (whole_of_withoutFeeds h.1)
  simp only [List.forall_mem_append, List.forall_mem_cons] at lines
  obtain ⟨⟨⟨-, time, -⟩, required⟩, optional⟩ := lines
  refine ⟨?_, fun f hf => entry ?_⟩
  · simp only [toString, String.toList_append, Text.whole_append] at time
    exact time.2
  · cases needs : f.required with
    | true => exact group required f (List.mem_filter.mpr ⟨hf, needs⟩)
    | false => exact group optional f (List.mem_filter.mpr ⟨hf, by simp [needs]⟩)

end Report.EnvExample

end EnvCensus
