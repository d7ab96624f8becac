import EnvCensus.Config
import EnvCensus.Data.Json
import EnvCensus.Proofs.Except
import EnvCensus.Proofs.Value

/-!
# Which documents are configurations

A document in the JSON notation is a configuration just when every setting in it
has a value of its kind; the configuration then has these values. A setting that
is missing or null is not set, and nothing else in the document counts.
-/

namespace EnvCensus

/-! ### Documents in the JSON notation -/

theorem Json.toValue_eq_text {v : Json} {s : String} : v.toValue = .text s ↔ v = .text s := by
  cases v <;> simp [toValue]

theorem Json.lookup_toEntries (fields : List (String × Json)) (name : String) :
    Value.lookup (toEntries fields) (.text name) = (fields.lookup name).map toValue := by
  induction fields with
  | nil => rfl
  | cons f fields ih =>
    obtain ⟨key, v⟩ := f
    rw [toEntries, Value.lookup_cons, if_congr Value.sameKey_texts rfl rfl, List.lookup_cons, ih]
    by_cases same : key = name
    · simp [same]
    · have other : (name == key) = false := by simpa using Ne.symm same
      simp [same, other]

namespace Config

variable {option : String} {v : Option Json} {fields fields' : List (String × Json)}
  {path : Option String} {config : Config}

/-- The value under a key that may be missing. -/
def given (v : Option Json) : Value := (v.map Json.toValue).getD .null

theorem ofValue_object (fields : List (String × Json)) (path : Option String) :
    ofValue (Json.object fields).toValue path = ofMapping (Json.object fields).toValue path := rfl

theorem field_toValue (fields : List (String × Json)) (name : String) :
    (Json.object fields).toValue.field name = given ((Json.object fields).field? name) := by
  rw [Json.toValue, Value.field_map, Json.lookup_toEntries]
  rfl

/-! ### Settings -/

/-- What is set by the value under a key: nothing when it is missing or null, else what the value
is read as. -/
inductive Sets {α : Type} (reads : Json → α → Prop) : Option Json → Option α → Prop
  | missing : Sets reads none none
  | null : Sets reads (some .null) none
  | value {v : Json} {a : α} (h : reads v a) : Sets reads (some v) (some a)

def IsText (v : Json) (s : String) : Prop := v = .text s

/-- A text stands for the list of it alone. -/
inductive IsTexts : Json → List String → Prop
  | one (s : String) : IsTexts (.text s) [s]
  | list (ss : List String) : IsTexts (.list (ss.map .text)) ss

def IsSize (v : Json) (n : Int) : Prop := v = .int n ∧ 0 < n

def IsSection (v : Json) (fields : List (String × Json)) : Prop := v = .object fields

/-- What a reader makes of each value decides what it makes of a value that may be missing. -/
theorem reads_ok_iff {α : Type} {reads : Json → α → Prop} {f : Value → Except Fault (Option α)}
    (null : f .null = .ok none) (proper : ∀ a, ¬ reads .null a)
    (each : ∀ v a, v ≠ .null → (f v.toValue = .ok a ↔ ∃ b, reads v b ∧ a = some b))
    {a : Option α} : f (given v) = .ok a ↔ Sets reads v a := by
  cases v with
  | none =>
    rw [given, Option.map_none, Option.getD_none, null]
    constructor
    · rintro ⟨⟩
      exact .missing
    · rintro ⟨⟩
      rfl
  | some v =>
    rw [given, Option.map_some, Option.getD_some]
    by_cases isNull : v = .null
    · subst isNull
      rw [Json.toValue, null]
      constructor
      · rintro ⟨⟩
        exact .null
      · rintro (_ | _ | h)
        · rfl
        · exact absurd h (proper _)
    · rw [each v a isNull]
      constructor
      · rintro ⟨b, h, rfl⟩
        exact .value h
      · rintro (_ | _ | h)
        · exact absurd rfl isNull
        · exact ⟨_, h, rfl⟩

theorem textOf_ok_iff {s : Option String} : textOf option (given v) = .ok s ↔ Sets IsText v s := by
  refine reads_ok_iff rfl (fun a h => by cases h) fun v a notNull => ?_
  cases v with
  | null => exact absurd rfl notNull
  | text s => simp [Json.toValue, textOf, IsText, eq_comm]
  | _ => simp [Json.toValue, textOf, IsText]

theorem sizeOf_ok_iff {n : Option Int} : sizeOf (given v) = .ok n ↔ Sets IsSize v n := by
  refine reads_ok_iff rfl (fun a h => by cases h.1) fun v a notNull => ?_
  cases v with
  | null => exact absurd rfl notNull
  | int n =>
    by_cases positive : 0 < n
    · have counts : ¬ n ≤ 0 := by omega
      simp [Json.toValue, sizeOf, IsSize, counts, positive, eq_comm]
    · have counts : n ≤ 0 := by omega
      simp [Json.toValue, sizeOf, IsSize, counts, positive]
  | _ => simp [Json.toValue, sizeOf, IsSize]

/-- The items are texts just when each of them is read as one. -/
theorem mapM_toValues {g : Value → Option String} (reads : ∀ v s, g v = some s ↔ v = .text s)
    {items : List Json} {ss : List String} :
    (Json.toValues items).mapM g = some ss ↔ items = ss.map .text := by
  induction items generalizing ss with
  | nil => cases ss <;> simp [Json.toValues]
  | cons v items ih =>
    rw [Json.toValues, List.mapM_cons]
    simp only [Option.bind_eq_bind, Option.bind_eq_some_iff, reads, Json.toValue_eq_text, ih,
      Option.pure_def, Option.some.injEq]
    cases ss with
    | nil => simp
    | cons s ss => simp [and_comm]

theorem isTexts_list_iff {items : List Json} {ss : List String} :
    IsTexts (.list items) ss ↔ items = ss.map .text := by
  constructor
  · rintro ⟨⟩
    rfl
  · rintro rfl
    exact .list ss

theorem textList_ok_iff {ss : Option (List String)} :
    textList option (given v) = .ok ss ↔ Sets IsTexts v ss := by
  refine reads_ok_iff rfl (fun a h => by cases h) fun v a notNull => ?_
  cases v with
  | null => exact absurd rfl notNull
  | text s =>
    rw [Json.toValue, textList]
    constructor
    · rintro ⟨⟩
      exact ⟨[s], .one s, rfl⟩
    · rintro ⟨_, ⟨⟩, rfl⟩
      rfl
  | list items =>
    simp only [Json.toValue, textList, Value.unrolled_list, isTexts_list_iff]
    split
    · rename_i ss read
      constructor
      · rintro ⟨⟩
        exact ⟨ss, (mapM_toValues fun v s => by cases v <;> simp).mp read, rfl⟩
      · rintro ⟨b, texts, rfl⟩
        have reread := read.symm.trans
          ((mapM_toValues fun v s => by cases v <;> simp).mpr texts)
        rw [Option.some.inj reread]
    · rename_i unread
      refine iff_of_false nofun ?_
      rintro ⟨b, texts, -⟩
      cases unread.symm.trans ((mapM_toValues fun v s => by cases v <;> simp).mpr texts)
  | bool | int | float | object =>
    refine iff_of_false (by simp [Json.toValue, textList, Value.unrolled]) ?_
    rintro ⟨_, ⟨⟩, -⟩

theorem sectionOf_ok_iff {key : String} {s : Value} :
    sectionOf (Json.object fields).toValue key = .ok s ↔
      ∃ found, Sets IsSection ((Json.object fields).field? key) found ∧
        s = (Json.object (found.getD [])).toValue := by
  rw [sectionOf, field_toValue]
  cases (Json.object fields).field? key with
  | none =>
    constructor
    · rintro ⟨⟩
      exact ⟨none, .missing, rfl⟩
    · rintro ⟨_, ⟨⟩, rfl⟩
      rfl
  | some v =>
    cases v with
    | null =>
      constructor
      · rintro ⟨⟩
        exact ⟨none, .null, rfl⟩
      · rintro ⟨_, ⟨⟩ | ⟨⟩ | ⟨⟨⟩⟩, rfl⟩
        rfl
    | object entries =>
      constructor
      · rintro ⟨⟩
        exact ⟨some entries, .value rfl, rfl⟩
      · rintro ⟨_, ⟨⟩ | ⟨⟩ | ⟨⟨⟩⟩, rfl⟩
        rfl
    | bool | int | float | text | list =>
      refine iff_of_false (by simp [given, Json.toValue, Value.unrolled]) ?_
      rintro ⟨_, ⟨⟩ | ⟨⟩ | ⟨⟨⟩⟩, -⟩

theorem knownFormats_ok_iff {formats : Option (List String)} {u : Unit} :
    knownFormats formats = .ok u ↔
      ∀ ss, formats = some ss → ∀ s ∈ ss, s ∈ ["env", "json", "md", "all"] := by
  have none_unknown : knownFormats formats = .ok u ↔
      (formats.getD []).filter (fun f => !outputFormats.contains f && f != "all") = [] := by
    rw [knownFormats]
    split
    · rename_i known
      exact iff_of_true rfl known
    · rename_i unknown
      exact iff_of_false nofun unknown
  rw [none_unknown, List.filter_eq_nil_iff]
  cases formats with
  | none => simp
  | some ss => simp [outputFormats, or_iff_not_imp_left]

/-! ### Configurations -/

/-- The values of a configuration, each from its place in the document or in a section of it. -/
structure Settings (fields scan output : List (String × Json)) (config : Config) : Prop where
  maxFileSize : Sets IsSize ((Json.object scan).field? "maxFileSize") config.maxFileSize
  framework : Sets IsText ((Json.object scan).field? "framework") config.framework
  includePatterns : Sets IsTexts ((Json.object scan).field? "include") config.includePatterns
  excludePatterns : Sets IsTexts ((Json.object scan).field? "exclude") config.excludePatterns
  includeProviders :
    Sets IsTexts ((Json.object scan).field? "includeProviders") config.includeProviders
  excludeProviders :
    Sets IsTexts ((Json.object scan).field? "excludeProviders") config.excludeProviders
  publicPrefixes : Sets IsTexts ((Json.object fields).field? "publicPrefixes") config.publicPrefixes
  formats : Sets IsTexts ((Json.object output).field? "formats") config.formats
  known : ∀ ss, config.formats = some ss → ∀ s ∈ ss, s ∈ ["env", "json", "md", "all"]
  directory : Sets IsText ((Json.object output).field? "dir") config.directory

/-- The document describes the configuration. -/
inductive Describes (path : Option String) : Json → Config → Prop
  | nothing : Describes path .null { path }
  | object {fields : List (String × Json)} {scan output : Option (List (String × Json))}
      {config : Config} (hscan : Sets IsSection ((Json.object fields).field? "scan") scan)
      (houtput : Sets IsSection ((Json.object fields).field? "output") output)
      (settings : Settings fields (scan.getD []) (output.getD []) config)
      (source : config.path = path) : Describes path (.object fields) config

theorem ofValue_ok_iff {document : Json} :
    ofValue document.toValue path = .ok config ↔ Describes path document config := by
  cases document with
  | null =>
    constructor
    · rintro ⟨⟩
      exact .nothing
    · rintro ⟨⟩
      rfl
  | object fields =>
    rw [ofValue_object, ofMapping]
    simp only [bind_eq_ok, sectionOf_ok_iff]
    constructor
    · rintro ⟨_, ⟨scan, hscan, rfl⟩, _, ⟨output, houtput, rfl⟩, settings⟩
      simp only [field_toValue, sizeOf_ok_iff, textOf_ok_iff, textList_ok_iff,
        knownFormats_ok_iff] at settings
      obtain ⟨_, maxFileSize, _, framework, _, formats, _, known, _, directory, _, includePatterns,
        _, excludePatterns, _, includeProviders, _, excludeProviders, _, publicPrefixes, ⟨⟩⟩ :=
        settings
      exact .object hscan houtput ⟨maxFileSize, framework, includePatterns, excludePatterns,
        includeProviders, excludeProviders, publicPrefixes, formats, known, directory⟩ rfl
    · rintro (_ | ⟨hscan, houtput, settings, rfl⟩)
      refine ⟨_, ⟨_, hscan, rfl⟩, _, ⟨_, houtput, rfl⟩, ?_⟩
      simp only [field_toValue, sizeOf_ok_iff, textOf_ok_iff, textList_ok_iff,
        knownFormats_ok_iff]
      exact ⟨_, settings.maxFileSize, _, settings.framework, _, settings.formats, (),
        settings.known, _, settings.directory, _, settings.includePatterns, _,
        settings.excludePatterns, _, settings.includeProviders, _, settings.excludeProviders, _,
        settings.publicPrefixes, rfl⟩
  | bool | int | float | text | list => exact iff_of_false nofun nofun

/-! ### What else is in a document -/

/-- The same value under a key, or two objects that agree on the names. -/
inductive SameFields (names : List String) : Option Json → Option Json → Prop
  | same (v : Option Json) : SameFields names v v
  | objects {fields fields' : List (String × Json)}
      (agree : ∀ name ∈ names,
        (Json.object fields').field? name = (Json.object fields).field? name) :
      SameFields names (some (.object fields)) (some (.object fields'))

def scanSettings : List String :=
  ["maxFileSize", "framework", "include", "exclude", "includeProviders", "excludeProviders"]

def outputSettings : List String := ["formats", "dir"]

/-- The documents may differ under keys that are no settings, at the top and in the sections. -/
inductive SameSettings : Json → Json → Prop
  | same (document : Json) : SameSettings document document
  | objects {fields fields' : List (String × Json)}
      (hscan : SameFields scanSettings ((Json.object fields).field? "scan")
        ((Json.object fields').field? "scan"))
      (houtput : SameFields outputSettings ((Json.object fields).field? "output")
        ((Json.object fields').field? "output"))
      (prefixes : (Json.object fields').field? "publicPrefixes" =
        (Json.object fields).field? "publicPrefixes") :
      SameSettings (.object fields) (.object fields')

/-- Sections that agree on the names are both no objects, or have the same values there. -/
theorem sectionOf_same {names : List String} {key : String}
    (h : SameFields names ((Json.object fields).field? key) ((Json.object fields').field? key)) :
    (∃ fault, sectionOf (Json.object fields).toValue key = .error fault ∧
      sectionOf (Json.object fields').toValue key = .error fault) ∨
    ∃ s s', sectionOf (Json.object fields).toValue key = .ok s ∧
      sectionOf (Json.object fields').toValue key = .ok s' ∧
      ∀ name ∈ names, s'.field name = s.field name := by
  rw [sectionOf, sectionOf, field_toValue, field_toValue]
  revert h
  generalize (Json.object fields).field? key = v
  generalize (Json.object fields').field? key = v'
  rintro (_ | agree)
  · rcases v with _ | v
    · exact .inr ⟨_, _, rfl, rfl, fun _ _ => rfl⟩
    · cases v with
      | null | object => exact .inr ⟨_, _, rfl, rfl, fun _ _ => rfl⟩
      | bool | int | float | text | list => exact .inl ⟨_, rfl, rfl⟩
  · refine .inr ⟨_, _, rfl, rfl, fun name mem => ?_⟩
    rw [← Json.toValue, ← Json.toValue, field_toValue, field_toValue, agree name mem]

theorem ofValue_same {document document' : Json} (h : SameSettings document document') :
    ofValue document'.toValue path = ofValue document.toValue path := by
  cases h with
  | same => rfl
  | objects hscan houtput prefixes =>
    rename_i fields fields'
    rw [ofValue_object, ofValue_object, ofMapping, ofMapping]
    obtain ⟨fault, e, e'⟩ | ⟨scan, scan', e, e', inScan⟩ := sectionOf_same hscan
    · rw [e, e']
      rfl
    rw [e, e', ok_bind, ok_bind]
    obtain ⟨fault, e, e'⟩ | ⟨output, output', e, e', inOutput⟩ := sectionOf_same houtput
    · rw [e, e']
      rfl
    rw [e, e', ok_bind, ok_bind]
    simp only [scanSettings, outputSettings, List.forall_mem_cons] at inScan inOutput
    obtain ⟨maxFileSize, framework, includes, excludes, includeProviders, excludeProviders, -⟩ :=
      inScan
    obtain ⟨formats, dir, -⟩ := inOutput
    rw [maxFileSize, framework, includes, excludes, includeProviders, excludeProviders, formats,
      dir, field_toValue, field_toValue, prefixes]

/-- A document is a configuration exactly when it describes one, and fails in every other case.
Keys that are no settings do not matter. -/
theorem ofValue_exact (document : Json) (path : Option String) :
    (∀ config, ofValue document.toValue path = .ok config ↔ Describes path document config) ∧
      ((∃ fault, ofValue document.toValue path = .error fault) ↔
        ∀ config, ¬ Describes path document config) ∧
      ∀ document', SameSettings document document' →
        ofValue document'.toValue path = ofValue document.toValue path := by
  refine ⟨fun config => ofValue_ok_iff, ?_, fun document' same => ofValue_same same⟩
  simp only [← ofValue_ok_iff]
  cases ofValue document.toValue path <;> simp

end Config

end EnvCensus
