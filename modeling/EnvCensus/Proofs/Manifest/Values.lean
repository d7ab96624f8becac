import EnvCensus.Proofs.Manifest.Workflows
import EnvCensus.Proofs.Number.Binary64

/-!
# Values that are given

A variable that is given a value in the mapping of an environment has that value
as its default, and a service does not require it: truth values, numbers and texts
are written as they would be in the environment of a process, and none of them is
written as nothing. Days and instants have no such text. A variable that is given
one counts as one without a value.
-/

namespace EnvCensus

namespace Value

/-- A truth value, a number, a day or an instant, or a text that is not empty. -/
def isGiven : Value → Bool
  | bool _ => true
  | int _ => true
  | float _ => true
  | date _ => true
  | time _ => true
  | text s => s ≠ ""
  | _ => false

def isMoment : Value → Bool
  | date _ => true
  | time _ => true
  | _ => false

end Value

namespace Manifest

variable {here path : String} {options : Options} {v : Value}

theorem toString_int_ne_empty (n : Int) : toString n ≠ "" := by
  cases n with
  | ofNat m => exact Nat.repr_ne_empty
  | negSucc m => simp [toString, Int.repr]

/-- What is given has a text, which becomes the default, unless it is a day or an instant. -/
theorem isSome_scalarText (given : v.isGiven = true) :
    (nonEmpty (scalarText v)).isSome = true ↔ v.isMoment = false := by
  have kept {t : String} (h : t ≠ "") : (nonEmpty (some t)).isSome = true := by
    simp [nonEmpty, h]
  cases v with
  | bool b => cases b <;> decide
  | int n => exact iff_of_true (kept (toString_int_ne_empty n)) rfl
  | float x =>
    have h : String.ofList x.text ≠ "" := by simpa using x.text_ne_nil
    exact iff_of_true (kept h) rfl
  | text s => exact iff_of_true (kept (by simpa [Value.isGiven] using given)) rfl
  | date m => exact iff_of_false Bool.false_ne_true Bool.noConfusion
  | time m => exact iff_of_false Bool.false_ne_true Bool.noConfusion
  | _ => cases given

/-! ### Findings of entries -/

/-- The finding has a default, which is not empty. -/
def HasDefault (f : Finding) : Prop := ∃ t, f.defaultValue = some t ∧ t ≠ ""

/-- The finding is the one of an entry at its place in an environment. -/
structure IsOf (here path context : String) (hint : Option String) (e : (Value × Value) × Nat)
    (f : Finding) : Prop where
  name : f.name = e.1.1.display
  files : f.files = [⟨Path.absolute here path, e.2, 1, some context, hint⟩]

theorem hasDefault_iff {f : Finding} (h : f.defaultValue = nonEmpty (scalarText v)) :
    HasDefault f ↔ (nonEmpty (scalarText v)).isSome = true := by
  rw [HasDefault, h, Option.isSome_iff_exists]
  refine exists_congr fun t => and_iff_left_of_imp fun kept => ?_
  obtain ⟨-, some⟩ := Option.filter_eq_some_iff.mp kept
  simpa using some

/-- The findings of a mapping have the values that are given in it as their defaults, in a service
and in a workflow, except for days and instants; in a service, no other variable that is given a
value is required. -/
theorem given_value_kept_iff (here path : String) (options : Options) :
    (∀ (s : Value × Value) (entries : List (Value × Value)),
      (s.2.field "environment").unrolled = .map entries →
        Ends (Blocked (writtenService s))
          (List.Forall₂
            (fun e f => IsOf here path (serviceContext s) none e f ∧
              (e.1.2.isGiven = true →
                (f.required = false ∧ HasDefault f ↔ e.1.2.isMoment = false)))
            (placedEntries entries))
          (serviceFindings here path options s)) ∧
    ∀ (context : String) (hint : Option String) (entries : List (Value × Value)),
      Ends (Blocked (entries.flatMap writtenEntry))
        (List.Forall₂
          (fun e f => IsOf here path context hint e f ∧
            (e.1.2.isGiven = true → (HasDefault f ↔ e.1.2.isMoment = false)))
          (placedEntries entries))
        (blockFindings here path options context hint entries) := by
  constructor
  · intro s entries environment
    have isMap : s.2.isMap = true := isMap_of_field fun none => by
      rw [none] at environment
      cases environment
    have declares : placed (declared s) =
        (placedEntries entries).map fun e => (entryDeclaration e.1, e.2) := by
      rw [declared, declarations_map environment]
      exact placed_entryDeclarations entries
    rw [serviceFindings_eq isMap, declares, List.map_map]
    refine (writeOut_ends _).bind fun _ _ => .ok (forall₂_annotate ?_ ?_)
    · rintro e f notes ⟨⟨name, files⟩, kept⟩
      exact ⟨⟨name, files⟩, kept⟩
    · rw [List.forall₂_map_right_iff]
      refine List.forall₂_same.mpr fun e _ => ⟨⟨rfl, rfl⟩, fun given => ?_⟩
      rw [hasDefault_iff rfl, ← isSome_scalarText given]
      exact and_iff_right_of_imp Option.isNone_eq_false_iff.mpr
  · intro context hint entries
    rw [blockFindings_eq ⟨context, hint, entries⟩]
    refine (writeOut_ends _).bind fun _ _ => .ok ?_
    rw [Block.found, List.forall₂_map_right_iff]
    refine List.forall₂_same.mpr fun e _ => ⟨⟨rfl, rfl⟩, fun given => ?_⟩
    rw [hasDefault_iff rfl, isSome_scalarText given]

/-- A service that gives a zero, a false, a number, an entry without a valid name and a day. -/
def releaseEntries : List (Value × Value) :=
  [(.text "PORT", .int 0), (.text "DEBUG", .bool false),
    (.text "RATIO", .float (.finite false 4503599627370496 (-53))), (.text "9LIVES", .int 1),
    (.text "RELEASED", .date { year := 2024, month := 1, day := 15 })]

def releaseService : Value × Value :=
  (.text "web", .map [(.text "environment", .map releaseEntries)])

/-- A zero is a value, and so is a false. -/
theorem releaseService_kept :
    releaseService.2.field "environment" = .map releaseEntries ∧
    ∃ found, serviceFindings "/" "/compose.yaml" {} releaseService = .ok found ∧
      (∃ f ∈ found, f.name = "PORT" ∧ f.required = false ∧ HasDefault f) ∧
      ∃ f ∈ found, f.name = "DEBUG" ∧ f.required = false ∧ HasDefault f := by
  have environment : releaseService.2.field "environment" = .map releaseEntries := rfl
  obtain ⟨found, read⟩ : ∃ found,
      serviceFindings "/" "/compose.yaml" {} releaseService = .ok found := ⟨_, rfl⟩
  have rows := Ends.result
    ((given_value_kept_iff "/" "/compose.yaml" {}).1 releaseService releaseEntries environment) read
  have port : ((.text "PORT", .int 0), 1) ∈ placedEntries releaseEntries :=
    List.mem_filter.mpr ⟨List.mem_mapIdx.mpr ⟨0, by decide, rfl⟩, by decide +kernel⟩
  have debug : ((.text "DEBUG", .bool false), 2) ∈ placedEntries releaseEntries :=
    List.mem_filter.mpr ⟨List.mem_mapIdx.mpr ⟨1, by decide, rfl⟩, by decide +kernel⟩
  obtain ⟨f, hf, about, kept⟩ := mem_of_forall₂ rows.flip port
  obtain ⟨g, hg, about', kept'⟩ := mem_of_forall₂ rows.flip debug
  exact ⟨environment, found, read, ⟨f, hf, about.name, (kept rfl).mpr rfl⟩,
    g, hg, about'.name, (kept' rfl).mpr rfl⟩

/-- A day is no value: the variable is required and has no default. -/
theorem release_day_lost :
    (Value.date { year := 2024, month := 1, day := 15 }).isGiven = true ∧
    scan "/" "services:\n  web:\n    environment:\n      RELEASED: 2024-01-15\n" "/compose.yaml" {} =
      .ok [{ name := "RELEASED"
             source := .docker
             files := [⟨"/compose.yaml", 1, 1, some "Service: web", none⟩]
             required := true
             defaultValue := none }] :=
  ⟨rfl, by decide +kernel⟩

end Manifest

end EnvCensus
