import EnvCensus.Data.Value
import Mathlib.Data.List.Basic

/-!
# Fields of mappings

A field of a mapping can be set to a new value, or taken away. That is the value
that it then has; every other field has the value that it had.
-/

namespace EnvCensus.Value

variable {entries : List (Value × Value)} {k v value : Value} {name other : String}

/-- A text is the same key as itself only. -/
theorem sameKey_text : sameKey k (.text name) = true ↔ k = .text name := by
  cases k with
  | text s => simp [sameKey]
  | _ => simp [sameKey, integer?]

theorem sameKey_texts : sameKey (.text name) (.text other) = true ↔ name = other := by
  rw [sameKey_text, text.injEq]

theorem lookup_cons (key : Value) :
    lookup ((k, v) :: entries) key = if sameKey k key then some v else lookup entries key := by
  rw [lookup, List.find?_cons]
  cases same : sameKey k key with
  | true => simp
  | false => simp [lookup]

/-- A new value under a key changes what is under that key. -/
theorem lookup_insert (entries : List (Value × Value)) (name other : String) (value : Value) :
    lookup (insert entries (.text name) value) (.text other) =
      if name = other then some value else lookup entries (.text other) := by
  induction entries with
  | nil =>
    rw [insert, lookup_cons]
    exact if_congr sameKey_texts rfl rfl
  | cons e entries ih =>
    obtain ⟨k, old⟩ := e
    rw [insert]
    split
    · rename_i same
      rw [sameKey_text.mp same, lookup_cons, lookup_cons, if_congr sameKey_texts rfl rfl,
        if_congr sameKey_texts rfl rfl]
      split
      · rfl
      · rfl
    · rename_i differs
      rw [lookup_cons, lookup_cons, ih]
      by_cases there : sameKey k (.text other) = true
      · have apart : name ≠ other := by
          rintro rfl
          exact differs there
        rw [if_pos there, if_neg apart, if_pos there]
      · rw [if_neg there, if_neg there]

/-- The entries without those under a key. -/
def erase (entries : List (Value × Value)) (key : Value) : List (Value × Value) :=
  entries.filter fun e => !sameKey e.1 key

theorem lookup_erase (entries : List (Value × Value)) (name other : String) :
    lookup (erase entries (.text name)) (.text other) =
      if name = other then none else lookup entries (.text other) := by
  induction entries with
  | nil => simp [erase, lookup]
  | cons e entries ih =>
    obtain ⟨k, old⟩ := e
    rw [erase, List.filter_cons, ← erase]
    split
    · rename_i kept
      rw [lookup_cons, lookup_cons, ih]
      by_cases there : sameKey k (.text other) = true
      · have apart : name ≠ other := by
          rintro rfl
          simp [there] at kept
        rw [if_pos there, if_neg apart, if_pos there]
      · rw [if_neg there, if_neg there]
    · rename_i gone
      have same : sameKey k (.text name) = true := by simpa using gone
      rw [ih, lookup_cons, sameKey_text.mp same, if_congr sameKey_texts rfl rfl]
      split
      · rfl
      · rfl

/-- The entries with a new value of a field, or without the field. -/
def setField (name : String) : Option Value → List (Value × Value) → List (Value × Value)
  | some value, entries => insert entries (text name) value
  | none, entries => erase entries (text name)

@[simp]
theorem unrolled_list (items : List Value) : (list items).unrolled = list items := rfl

theorem field_map (entries : List (Value × Value)) (name : String) :
    (map entries).field name = (lookup entries (text name)).getD null := rfl

theorem field_setField (name other : String) (value : Option Value)
    (entries : List (Value × Value)) : (map (setField name value entries)).field other =
      if name = other then value.getD null else (map entries).field other := by
  cases value with
  | none =>
    rw [setField, field_map, lookup_erase, field_map]
    split
    · rfl
    · rfl
  | some value =>
    rw [setField, field_map, lookup_insert, field_map]
    split
    · rfl
    · rfl

end EnvCensus.Value
