import EnvCensus.Census
import Mathlib.Data.List.Perm.Basic

/-!
# Results in exchange

Results are exchanged as structured text in which absent parts are left out and the
fields of an object may stand in any order. Two results have the same form just when
they are the same, the figures of their tallies in whatever order: nothing is lost,
and what is empty is told from what is absent.
-/

namespace EnvCensus

namespace Json

mutual

/-- The same value; the fields of objects may stand in any order. -/
def Alike : Json → Json → Prop
  | null, null => True
  | bool b, bool c => b = c
  | int m, int n => m = n
  | float x, float y => x = y
  | text s, text t => s = t
  | list vs, list ws => AlikeItems vs ws
  | object fs, object gs => AlikeFields fs gs
  | _, _ => False

def AlikeItems : List Json → List Json → Prop
  | [], [] => True
  | v :: vs, w :: ws => Alike v w ∧ AlikeItems vs ws
  | _, _ => False

/-- Every field has its counterpart, and none is left over. -/
def AlikeFields : List (String × Json) → List (String × Json) → Prop
  | [], gs => gs = []
  | (k, v) :: fs, gs =>
    ∃ before w after, gs = before ++ (k, w) :: after ∧ Alike v w ∧ AlikeFields fs (before ++ after)

end

variable {v w : Json} {fs gs : List (String × Json)} {k : String}

mutual

theorem Alike.refl : ∀ v : Json, Alike v v
  | null => by simp [Alike]
  | bool b => by simp [Alike]
  | int n => by simp [Alike]
  | float x => by simp [Alike]
  | text s => by simp [Alike]
  | list vs => by rw [Alike]; exact AlikeItems.refl vs
  | object fs => by rw [Alike]; exact AlikeFields.refl fs

theorem AlikeItems.refl : ∀ vs : List Json, AlikeItems vs vs
  | [] => by simp [AlikeItems]
  | v :: vs => by rw [AlikeItems]; exact ⟨Alike.refl v, AlikeItems.refl vs⟩

theorem AlikeFields.refl : ∀ fs : List (String × Json), AlikeFields fs fs
  | [] => by simp [AlikeFields]
  | (k, v) :: fs => by
    rw [AlikeFields]; exact ⟨[], v, fs, rfl, Alike.refl v, AlikeFields.refl fs⟩

end

theorem AlikeFields.keys (h : AlikeFields fs gs) : (fs.map (·.1)).Perm (gs.map (·.1)) := by
  induction fs generalizing gs with
  | nil =>
    rw [AlikeFields] at h
    rw [h]
  | cons f fs ih =>
    obtain ⟨k, v⟩ := f
    rw [AlikeFields] at h
    obtain ⟨before, w, after, rfl, -, rest⟩ := h
    have ih := ih rest
    rw [List.map_append] at ih ⊢
    exact (ih.cons k).trans List.perm_middle.symm

/-- Under every key there are the same values, or none. -/
theorem AlikeFields.lookup (h : AlikeFields fs gs) (once : (fs.map (·.1)).Nodup) (k : String) :
    Option.Rel Alike (fs.lookup k) (gs.lookup k) := by
  induction fs generalizing gs with
  | nil =>
    rw [AlikeFields] at h
    rw [h]
    exact .none
  | cons f fs ih =>
    obtain ⟨k', v⟩ := f
    rw [AlikeFields] at h
    obtain ⟨before, w, after, rfl, first, rest⟩ := h
    rw [List.map_cons, List.nodup_cons] at once
    have ih := ih rest once.2
    rw [List.lookup_append] at ih
    rw [List.lookup_append, List.lookup_cons, List.lookup_cons]
    by_cases same : k = k'
    · subst same
      -- the key is given once, so no field in front of this one has it
      have new : before.lookup k = none := by
        rw [List.lookup_eq_none_iff]
        intro f mem
        rw [bne_iff_ne]
        intro same
        apply once.1
        rw [same, rest.keys.mem_iff]
        exact List.mem_map_of_mem (f := (·.1)) (List.mem_append_left after mem)
      rw [new, beq_self_eq_true]
      exact .some first
    · rw [beq_false_of_ne same]
      exact ih

/-- Fields under one key at the front. -/
theorem AlikeFields.cons (same : Alike v w) (rest : AlikeFields fs gs) (k : String) :
    AlikeFields ((k, v) :: fs) ((k, w) :: gs) := by
  rw [AlikeFields]
  exact ⟨[], w, gs, rfl, same, rest⟩

theorem alike_text {s t : String} : Alike (text s) (text t) ↔ s = t := by rw [Alike]

theorem alike_int {m n : Int} : Alike (int m) (int n) ↔ m = n := by rw [Alike]

theorem alike_bool {b c : Bool} : Alike (bool b) (bool c) ↔ b = c := by rw [Alike]

/-- Lists of forms are alike just when the lists are equal, where this holds of their elements. -/
theorem alike_list_map {α : Type} {form : α → Json} {xs ys : List α}
    (each : ∀ x y, Alike (form x) (form y) ↔ x = y) :
    Alike (list (xs.map form)) (list (ys.map form)) ↔ xs = ys := by
  rw [Alike]
  induction xs generalizing ys with
  | nil => cases ys <;> simp [AlikeItems]
  | cons x xs ih =>
    cases ys with
    | nil => simp [AlikeItems]
    | cons y ys => rw [List.map_cons, List.map_cons, AlikeItems, each, ih, List.cons.injEq]

/-- The keys of an object. -/
def keys : Json → List String
  | object fs => fs.map (·.1)
  | _ => []

/-- Alike objects have alike values under every key, or none. -/
theorem Alike.field (h : Alike (object fs) (object gs)) (once : (object fs).keys.Nodup)
    (k : String) : Option.Rel Alike ((object fs).field? k) ((object gs).field? k) := by
  rw [Alike] at h
  exact h.lookup once k

/-- Alike objects have alike values under a key that both have. -/
theorem Alike.value (h : Alike (object fs) (object gs)) (once : (object fs).keys.Nodup) (k : String)
    (hv : (object fs).field? k = some v) (hw : (object gs).field? k = some w) : Alike v w := by
  have field := h.field once k
  rw [hv, hw] at field
  exact Option.rel_some_some.mp field

/-- What alike objects may have under a key is the same, or neither has it. -/
theorem Alike.option {α : Type} {form : α → Json} {o p : Option α}
    (h : Alike (object fs) (object gs)) (once : (object fs).keys.Nodup) (k : String)
    (each : ∀ x y, Alike (form x) (form y) ↔ x = y)
    (ho : (object fs).field? k = o.map form) (hp : (object gs).field? k = p.map form) : o = p := by
  have field := h.field once k
  rw [ho, hp] at field
  cases o with
  | none => cases p with
    | none => rfl
    | some y => cases field
  | some x => cases p with
    | none => cases field
    | some y => rw [(each x y).mp (Option.rel_some_some.mp field)]

end Json

open Json (alike_text alike_int alike_bool alike_list_map)

namespace FileRef

variable {r s : FileRef}

theorem nodup_keys_toJson (r : FileRef) : r.toJson.keys.Nodup := by
  obtain ⟨path, line, column, context, hint⟩ := r
  cases context <;> cases hint <;> simp [toJson, Json.keys]

/-- What is said of a place is left out when nothing is said; an empty text is something. -/
theorem field?_context (r : FileRef) : r.toJson.field? "context" = r.context.map .text := by
  obtain ⟨path, line, column, context, hint⟩ := r
  cases context <;> cases hint <;> rfl

theorem field?_hint (r : FileRef) : r.toJson.field? "hint" = r.hint.map .text := by
  obtain ⟨path, line, column, context, hint⟩ := r
  cases context <;> cases hint <;> rfl

theorem toJson_alike_iff (r s : FileRef) : r.toJson.Alike s.toJson ↔ r = s := by
  refine ⟨fun h => ?_, fun same => same ▸ .refl _⟩
  have once := nodup_keys_toJson r
  have path := alike_text.mp (Json.Alike.value h once "filePath" rfl rfl)
  have line := alike_int.mp (Json.Alike.value h once "line" rfl rfl)
  have column := alike_int.mp (Json.Alike.value h once "column" rfl rfl)
  have context := Json.Alike.option h once "context" (fun _ _ => alike_text)
    (field?_context r) (field?_context s)
  have hint := Json.Alike.option h once "hint" (fun _ _ => alike_text)
    (field?_hint r) (field?_hint s)
  cases r
  cases s
  rw [mk.injEq]
  exact ⟨path, Int.natCast_inj.mp line, Int.natCast_inj.mp column, context, hint⟩

end FileRef

namespace Finding

theorem nodup_keys_toJson (f : Finding) : f.toJson.keys.Nodup := by
  obtain ⟨name, source, files, required, default, exposed, notes⟩ := f
  cases default <;> cases notes <;> simp [toJson, Json.keys]

/-- The default is left out when there is none; an empty default is one. -/
theorem field?_defaultValue (f : Finding) :
    f.toJson.field? "defaultValue" = f.defaultValue.map .text := by
  obtain ⟨name, source, files, required, default, exposed, notes⟩ := f
  cases default <;> cases notes <;> rfl

/-- The list of the notes is left out when it is empty. -/
theorem field?_notes (f : Finding) : f.toJson.field? "notes" =
    (if f.notes = [] then none else some f.notes).map fun notes => .list (notes.map .text) := by
  obtain ⟨name, source, files, required, default, exposed, notes⟩ := f
  cases default <;> cases notes <;> rfl

theorem tag_injective : Function.Injective Source.tag := by
  intro s t same
  cases s <;> cases t <;> first | rfl | exact absurd same (by decide)

theorem toJson_alike_iff (f g : Finding) : f.toJson.Alike g.toJson ↔ f = g := by
  refine ⟨fun h => ?_, fun same => same ▸ .refl _⟩
  have once := nodup_keys_toJson f
  have name := alike_text.mp (Json.Alike.value h once "name" rfl rfl)
  have source := tag_injective (alike_text.mp (Json.Alike.value h once "source" rfl rfl))
  have files := (alike_list_map FileRef.toJson_alike_iff).mp
    (Json.Alike.value h once "files" rfl rfl)
  have required := alike_bool.mp (Json.Alike.value h once "required" rfl rfl)
  have exposed := alike_bool.mp (Json.Alike.value h once "isPublic" rfl rfl)
  have default := Json.Alike.option h once "defaultValue" (fun _ _ => alike_text)
    (field?_defaultValue f) (field?_defaultValue g)
  have given := Json.Alike.option h once "notes" (fun _ _ => alike_list_map fun _ _ => alike_text)
    (field?_notes f) (field?_notes g)
  have notes : f.notes = g.notes := by
    by_cases none : f.notes = []
    · rw [if_pos none] at given
      by_contra differs
      rw [if_neg fun none' => differs (none.trans none'.symm)] at given
      cases given
    · rw [if_neg none] at given
      by_cases none' : g.notes = []
      · rw [if_pos none'] at given
        cases given
      · rw [if_neg none', Option.some.injEq] at given
        exact given
  cases f
  cases g
  rw [mk.injEq]
  exact ⟨name, source, files, required, default, exposed, notes⟩

end Finding

namespace Tally

/-- The same figures, those of sources and providers in any order. -/
structure Same (t u : Tally) : Prop where
  totalFiles : t.totalFiles = u.totalFiles
  totalFindings : t.totalFindings = u.totalFindings
  parseErrors : t.parseErrors = u.parseErrors
  milliseconds : t.milliseconds = u.milliseconds
  bySource : t.bySource.Perm u.bySource
  filesByProvider : t.filesByProvider.Perm u.filesByProvider
  findingsByProvider : t.findingsByProvider.Perm u.findingsByProvider

theorem figures_alike_iff (ps qs : List (String × Int)) :
    (figures ps).Alike (figures qs) ↔ ps.Perm qs := by
  unfold figures
  rw [Json.Alike]
  -- each figure is found among the others and taken out of them
  induction ps generalizing qs with
  | nil => simp [Json.AlikeFields]
  | cons p ps ih =>
    rw [List.map_cons, Json.AlikeFields]
    constructor
    · rintro ⟨before, w, after, split, same, rest⟩
      obtain ⟨front, others, rfl, rfl, tail⟩ := List.map_eq_append_iff.mp split
      obtain ⟨q, back, rfl, first, rfl⟩ := List.map_eq_cons_iff.mp tail
      obtain ⟨key, rfl⟩ := Prod.mk.inj first
      have equal : p = q := Prod.ext key.symm (alike_int.mp same)
      rw [← List.map_append, ih] at rest
      rw [equal]
      exact (rest.cons q).trans List.perm_middle.symm
    · intro perm
      obtain ⟨front, back, rfl⟩ := List.append_of_mem (perm.subset List.mem_cons_self)
      have rest : ps.Perm (front ++ back) := (perm.trans List.perm_middle).cons_inv
      refine ⟨front.map fun q => (q.1, .int q.2), .int p.2, back.map fun q => (q.1, .int q.2), ?_,
        .refl _, ?_⟩
      · rw [List.map_append, List.map_cons]
      · rw [← List.map_append]
        exact (ih _).mpr rest

theorem figures_injective : Function.Injective figures := by
  intro ps qs same
  refine List.map_injective_iff.mpr ?_ (Json.object.inj same)
  intro p q same
  obtain ⟨key, value⟩ := Prod.mk.inj same
  exact Prod.ext key (Json.int.inj value)

theorem toJson_injective : Function.Injective toJson := by
  intro t u same
  simp only [toJson, Json.object.injEq, List.cons.injEq, Prod.mk.injEq, Json.int.injEq, true_and,
    and_true, figures_injective.eq_iff] at same
  cases t
  cases u
  rw [mk.injEq]
  exact same

theorem nodup_keys_toJson (t : Tally) : t.toJson.keys.Nodup := by
  simp [toJson, Json.keys]

theorem toJson_alike_iff (t u : Tally) : t.toJson.Alike u.toJson ↔ t.Same u := by
  constructor
  · intro h
    have value (k : String) {v w : Json} :=
      Json.Alike.value (v := v) (w := w) h (nodup_keys_toJson t) k
    exact
      { totalFiles := alike_int.mp (value "totalFiles" rfl rfl)
        totalFindings := alike_int.mp (value "totalFindings" rfl rfl)
        parseErrors := alike_int.mp (value "parseErrors" rfl rfl)
        milliseconds := alike_int.mp (value "scanTimeMs" rfl rfl)
        bySource := (figures_alike_iff _ _).mp (value "countsBySource" rfl rfl)
        filesByProvider := (figures_alike_iff _ _).mp (value "filesByProvider" rfl rfl)
        findingsByProvider := (figures_alike_iff _ _).mp (value "findingsByProvider" rfl rfl) }
  · intro same
    rw [toJson, toJson, Json.Alike]
    have counts := (figures_alike_iff _ _).mpr same.bySource
    have files := (figures_alike_iff _ _).mpr same.filesByProvider
    have findings := (figures_alike_iff _ _).mpr same.findingsByProvider
    refine .cons (alike_int.mpr same.totalFiles) (.cons (alike_int.mpr same.totalFindings)
      (.cons (alike_int.mpr same.parseErrors) (.cons (alike_int.mpr same.milliseconds)
        (.cons counts (.cons files (.cons findings (.refl []) _) _) _) _) _) _) _

end Tally

namespace Census

/-- The same results, the figures in any order. -/
structure Same (c d : Census) : Prop where
  findings : c.findings = d.findings
  tally : c.tally.Same d.tally
  scannedAt : c.scannedAt = d.scannedAt
  framework : c.framework = d.framework

theorem nodup_keys_toJson (c : Census) : c.toJson.keys.Nodup := by
  obtain ⟨findings, tally, scannedAt, framework⟩ := c
  cases framework <;> simp [toJson, fields, Json.keys]

/-- The framework is left out when there is none; an empty tag is one. -/
theorem field?_framework (c : Census) : c.toJson.field? "framework" = c.framework.map .text := by
  obtain ⟨findings, tally, scannedAt, framework⟩ := c
  cases framework <;> rfl

theorem toJson_alike_iff (c d : Census) : c.toJson.Alike d.toJson ↔ c.Same d := by
  constructor
  · intro h
    have once := nodup_keys_toJson c
    exact
      { findings := (alike_list_map Finding.toJson_alike_iff).mp
          (Json.Alike.value h once "findings" rfl rfl)
        tally := (Tally.toJson_alike_iff _ _).mp (Json.Alike.value h once "stats" rfl rfl)
        scannedAt := alike_text.mp (Json.Alike.value h once "scannedAt" rfl rfl)
        framework := Json.Alike.option h once "framework" (fun _ _ => alike_text)
          (field?_framework c) (field?_framework d) }
  · intro same
    rw [toJson, toJson, Json.Alike, fields, fields, same.findings, same.scannedAt, same.framework]
    exact .cons (.refl _) (.cons ((Tally.toJson_alike_iff _ _).mpr same.tally) (.refl _) _) _

/-- Forms with the figures in one order are equal only for equal results. -/
theorem toJson_injective : Function.Injective toJson := by
  intro c d equal
  have same : c.Same d := (toJson_alike_iff c d).mp (equal ▸ .refl _)
  have stats : c.tally.toJson = d.tally.toJson :=
    Option.some.inj (congrArg (·.field? "stats") equal)
  have tally := Tally.toJson_injective stats
  cases c
  cases d
  rw [mk.injEq]
  exact ⟨same.findings, tally, same.scannedAt, same.framework⟩

/-- Nothing is lost in exchange: two results have the same form, whatever the order of its fields,
just when they are the same but for the order of their figures, and the very same form just when
they are equal. -/
theorem exchanged_iff (c d : Census) :
    (c.toJson.Alike d.toJson ↔ c.Same d) ∧ (c.toJson = d.toJson ↔ c = d) :=
  ⟨toJson_alike_iff c d, toJson_injective.eq_iff⟩

end Census

end EnvCensus
