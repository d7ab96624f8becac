import EnvCensus.Command.Run
import EnvCensus.Proofs.Options.Precedence
import EnvCensus.Proofs.Report.Terminal

/-!
# Which options are accepted

A choice of options is refused just when it names a framework or a provider that
does not exist, also where another name comes before it. The options of every
other choice are valid. What is refused is told in one line, which is read as
marked-up text. Where the display cannot read it, in particular behind a closing
tag that has nothing to close, the run ends without a status.
-/

namespace EnvCensus

variable {c : Choice} {config : Config} {document : Value} {path : Option String} {width : Nat}

theorem Framework.ofTag?_eq_none_iff {name : String} :
    ofTag? name = none ↔ ∀ f : Framework, f.tag ≠ name := by
  rw [ofTag?, List.find?_eq_none]
  simp only [beq_iff_eq]
  exact ⟨fun none f => none f (by cases f <;> decide), fun none f _ => none f⟩

theorem Config.sizeOf_pos {v : Value} {n : Int} (sized : sizeOf v = .ok (some n)) : 1 ≤ n := by
  unfold sizeOf at sized
  split at sized
  · cases sized
  · split at sized
    · cases sized
    · cases sized
      omega
  · cases sized

theorem Config.maxFileSize_pos (parsed : ofValue document path = .ok config) {n : Int}
    (set : config.maxFileSize = some n) : 1 ≤ n := by
  unfold ofValue at parsed
  split at parsed
  · cases parsed
    cases set
  · simp only [ofMapping, bind_eq_ok] at parsed
    obtain ⟨_, -, _, -, size, sized, _, -, _, -, _, -, _, -, _, -, _, -, _, -, _, -, _, -, ⟨⟩⟩ :=
      parsed
    cases set
    exact sizeOf_pos sized
  · cases parsed

namespace Choice

open Command Report Report.Terminal

/-! ### Names that do not exist -/

/-- The framework that counts has a name, and it is the name of none. -/
def UnknownFramework (c : Choice) (config : Config) (name : String) : Prop :=
  c.effectiveFramework config = some name ∧ name ≠ "" ∧ ∀ f : Framework, f.tag ≠ name

/-- A provider is named by what is asked for or by the configuration, whichever of them counts. -/
def NamesProvider (c : Choice) (config : Config) (name : String) : Prop :=
  name ∈ c.providers ∨ name ∈ c.excludeProviders ∨ name ∈ config.includeProviders.getD [] ∨
    name ∈ config.excludeProviders.getD []

def NamesUnknown (c : Choice) (config : Config) : Prop :=
  (∃ name, c.UnknownFramework config name) ∨
    ∃ name, c.NamesProvider config name ∧ name ∉ Registry.standard.names

/-- The framework is refused first, then the first provider that does not exist. -/
inductive Refuses (c : Choice) (config : Config) : Refusal → Prop
  | framework {name : String} (unknown : c.UnknownFramework config name) :
      Refuses c config (.unknownFramework name)
  | provider {before after : List String} {name : String}
      (known : ∀ name, ¬ c.UnknownFramework config name)
      (named : c.namedProviders config = before ++ name :: after)
      (earlier : ∀ n ∈ before, n ∈ Registry.standard.names)
      (unknown : name ∉ Registry.standard.names) : Refuses c config (.unknownProvider name)

theorem mem_namedProviders {name : String} :
    name ∈ c.namedProviders config ↔ c.NamesProvider config name := by
  simp [namedProviders, NamesProvider]

theorem unknownFramework_iff {name : String} :
    ((c.effectiveFramework config).filter (· ≠ "")).filter
        (fun name => (Framework.ofTag? name).isNone) = some name ↔
      c.UnknownFramework config name := by
  simp only [Option.filter_eq_some_iff, UnknownFramework, Option.isNone_iff_eq_none,
    Framework.ofTag?_eq_none_iff, decide_eq_true_eq, and_assoc]

theorem options_error_iff {r : Refusal} : c.options config = .error r ↔ Refuses c config r := by
  rw [options_eq]
  constructor
  · intro h
    split at h
    · rename_i name refused
      cases h
      exact .framework (unknownFramework_iff.mp refused)
    · rename_i known
      split at h
      · rename_i name found
        cases h
        obtain ⟨unknown, before, after, named, earlier⟩ := List.find?_eq_some_iff_append.mp found
        refine .provider (fun name refused => ?_) named (fun n mem => ?_) (by simpa using unknown)
        · cases known.symm.trans (unknownFramework_iff.mpr refused)
        · simpa using earlier n mem
      · cases h
  · rintro (unknown | ⟨known, named, earlier, unknown⟩)
    · rw [unknownFramework_iff.mpr unknown]
    · rename_i before after name
      have none_refused := Option.eq_none_iff_forall_not_mem.mpr fun name refused =>
        known name (unknownFramework_iff.mp refused)
      have found : (c.namedProviders config).find?
          (fun n => !Registry.standard.names.contains n) = some name :=
        List.find?_eq_some_iff_append.mpr ⟨by simpa using unknown, before, after, named,
          fun n mem => by simpa using earlier n mem⟩
      rw [none_refused, found]

theorem names_known {o : Options} (accepted : c.options config = .ok o) :
    ¬ c.NamesUnknown config := by
  rw [options_eq] at accepted
  split at accepted
  · cases accepted
  · rename_i framework
    split at accepted
    · cases accepted
    · rename_i providers
      rintro (⟨name, unknown⟩ | ⟨name, named, unknown⟩)
      · cases framework.symm.trans (unknownFramework_iff.mpr unknown)
      · have known := List.find?_eq_none.mp providers name (mem_namedProviders.mpr named)
        exact unknown (by simpa using known)

theorem options_refused_iff : (∃ r, c.options config = .error r) ↔ c.NamesUnknown config := by
  constructor
  · rintro ⟨r, refused⟩
    obtain ⟨unknown⟩ | ⟨-, named, -, unknown⟩ := options_error_iff.mp refused
    · exact .inl ⟨_, unknown⟩
    · exact .inr ⟨_, mem_namedProviders.mp (named ▸ by simp), unknown⟩
  · intro unknown
    cases settled : c.options config with
    | error r => exact ⟨r, rfl⟩
    | ok o => exact absurd unknown (names_known settled)

/-! ### Accepted options -/

/-- Every name in the options exists, the size allows something and no prefix is repeated. -/
structure IsValid (o : Options) : Prop where
  framework : ∀ name, o.framework = some name → name = "" ∨ ∃ f : Framework, f.tag = name
  includeProviders : ∀ n ∈ o.includeProviders, n ∈ Registry.standard.names
  excludeProviders : ∀ n ∈ o.excludeProviders, n ∈ Registry.standard.names
  maxFileSize : 1 ≤ o.maxFileSize
  publicPrefixes : o.publicPrefixes.Nodup

/-! ### Refusals -/

/-- The name that is refused. -/
def Refusal.name : Refusal → String
  | unknownFramework name => name
  | unknownProvider name => name

theorem mem_of_mem_intercalate {x : Char} {separator : String} {texts : List String}
    (h : x ∈ (separator.intercalate texts).toList) :
    x ∈ separator.toList ∨ ∃ s ∈ texts, x ∈ s.toList := by
  induction texts with
  | nil => simp at h
  | cons s texts ih =>
    cases texts with
    | nil => exact .inr ⟨s, List.mem_cons_self, by rwa [String.intercalate_singleton] at h⟩
    | cons t texts =>
      rw [String.intercalate_cons_cons, String.toList_append, String.toList_append,
        List.mem_append, List.mem_append] at h
      rcases h with (first | between) | later
      · exact .inr ⟨s, List.mem_cons_self, first⟩
      · exact .inl between
      · rcases ih later with between | ⟨n, mem, inside⟩
        · exact .inl between
        · exact .inr ⟨n, List.mem_cons_of_mem _ mem, inside⟩

/-- The end of the line of a refusal, with the names that exist. -/
def namesText (known : List String) : String := " (choose from " ++ ", ".intercalate known ++ ")"

theorem unmarked_namesText {known : List String} (h : ∀ n ∈ known, '[' ∉ n.toList) :
    '[' ∉ (namesText known).toList := by
  rw [namesText, String.toList_append, String.toList_append, List.mem_append, List.mem_append,
    not_or, not_or]
  refine ⟨⟨by decide, fun inside => ?_⟩, by decide⟩
  rcases mem_of_mem_intercalate inside with between | ⟨n, mem, within⟩
  · exact absurd between (by decide)
  · exact h n mem within

theorem spelled_eq (front name known : String) :
    s!"{front}{name} (choose from {known})" =
      front ++ name ++ (" (choose from " ++ known ++ ")") := by
  simp only [String.append_assoc, toString]

/-- Brackets stand in the message of a refusal only where they are part of the name. -/
theorem Refusal.message_eq (r : Refusal) : ∃ (front : String) (known : List String),
    r.message = front ++ r.name ++ namesText known ∧ Console.Plain front ∧
      ∀ n ∈ known, '[' ∉ n.toList := by
  cases r with
  | unknownFramework name =>
    exact ⟨"Unknown framework: ", _, spelled_eq _ name _, by decide, by decide⟩
  | unknownProvider name =>
    have plain : ∀ n ∈ Registry.standard.names, '[' ∉ n.toList := by decide
    exact ⟨"Unknown provider: ", _, spelled_eq _ name _, by decide,
      fun n mem => plain n (List.mem_mergeSort.mp mem)⟩

/-- The line of a refusal has a text without open styles before the name and no brackets
behind it. -/
theorem Refusal.line_eq (r : Refusal) : ∃ front back : String,
    refusalLine r.message = styled "red" "Error:" ++ front ++ r.name ++ back ∧
      Console.Plain front ∧ '[' ∉ back.toList := by
  obtain ⟨front, known, spelled, plain, names⟩ := r.message_eq
  refine ⟨" " ++ front, namesText known, ?_, ?_, unmarked_namesText names⟩
  · rw [refusalLine, spelled]
    simp only [String.append_assoc]
  · simpa [Console.Plain] using plain

section Display

variable [Text.Halves] [Console] [Console.Lawful]

omit [Text.Halves] [Console] [Console.Lawful] in
theorem closed_error {s : String} (h : Console.Plain s) :
    Console.Closed (styled "red" "Error:" ++ s) := by
  have closed : Console.Closed ("" ++ styled "red" "Error:" ++ s) :=
    .styled (by decide) (by decide) (by decide) h
  rwa [String.empty_append] at closed

omit [Console.Lawful] in
/-- A refusal is told just when its line can be read; otherwise the run fails as the reading
does. -/
theorem refusal_settled (width : Nat) (message : String) :
    (∀ cs, Console.read (refusalLine message) = .ok cs → ∃ text, refusal width message =
      .ok { status := 1, errors := text }) ∧
    ∀ e, Console.read (refusalLine message) = .error e → refusal width message = .error e := by
  constructor
  · intro cs shows
    exact ⟨_, by rw [refusal, Terminal.message, shows]; rfl⟩
  · intro e stops
    rw [refusal, Terminal.message, stops]
    rfl

/-- How a refusal ends a run: told in one line, with a status, just when the line can be read. A
line with a name that has no tags can be read, and one with a closing tag at the first bracket of
the name cannot. -/
structure Told (width : Nat) (r : Refusal) : Prop where
  told : ∀ cs, Console.read (refusalLine r.message) = .ok cs →
    ∃ text, refusal width r.message = .ok { status := 1, errors := text }
  untold : ∀ e, Console.read (refusalLine r.message) = .error e →
    refusal width r.message = .error e
  unmarked : '[' ∉ r.name.toList → ∃ cs, Console.read (refusalLine r.message) = .ok cs
  unopened : ∀ front name back, Console.Plain front → ('[' ∉ name.toList ∧ ']' ∉ name.toList) →
    r.name = front ++ "[/" ++ name ++ "]" ++ back →
    ∃ e, Console.read (refusalLine r.message) = .error e

theorem Refusal.told (width : Nat) (r : Refusal) : Told width r := by
  obtain ⟨front, back, line, plain, unmarked⟩ := r.line_eq
  obtain ⟨told, untold⟩ := refusal_settled width r.message
  refine ⟨told, untold, fun bare => ?_, fun before name after plain' named spelled => ?_⟩
  · rw [line, String.append_assoc]
    refine Console.Lawful.shows (closed_error plain) ?_
    rw [String.toList_append, List.mem_append, not_or]
    exact ⟨bare, unmarked⟩
  · have joined : Console.Plain (front ++ before) := by
      simpa [Console.Plain, not_or] using ⟨⟨plain.1, plain'.1⟩, plain.2, plain'.2⟩
    obtain ⟨e, stops⟩ := Console.Lawful.unopened (after ++ back) (closed_error joined) named
    refine ⟨e, ?_⟩
    rw [← stops, line, spelled]
    simp only [String.append_assoc]

end Display

/-! ### Every choice -/

theorem mem_of_mem_firstList {asked otherwise : List String} {set : Option (List String)}
    {n : String} (h : n ∈ firstList asked set otherwise) :
    n ∈ asked ∨ n ∈ set.getD [] ∨ n ∈ otherwise := by
  unfold firstList at h
  split at h
  · exact .inl h
  · split at h
    · exact .inr (.inr h)
    · exact .inr (.inl h)

theorem maxFileSizeOf_pos (asked : ∀ n, c.maxFileSize = some n → 1 ≤ n)
    (set : ∀ n, config.maxFileSize = some n → 1 ≤ n) : 1 ≤ c.maxFileSizeOf config := by
  have size : ∀ n, (c.maxFileSize.filter (· ≠ 0)).or (config.maxFileSize.filter (· ≠ 0)) = some n →
      1 ≤ n := by
    intro n first
    rcases Option.or_eq_some_iff.mp first with here | ⟨-, there⟩
    · exact asked n (Option.filter_eq_some_iff.mp here).1
    · exact set n (Option.filter_eq_some_iff.mp there).1
  unfold maxFileSizeOf
  cases first : (c.maxFileSize.filter (· ≠ 0)).or (config.maxFileSize.filter (· ≠ 0)) with
  | some n => exact size n first
  | none => decide

theorem isValid_accepted (parsed : Config.ofValue document path = .ok config)
    (asked : ∀ n, c.maxFileSize = some n → 1 ≤ n) {o : Options}
    (accepted : c.options config = .ok o) : IsValid o := by
  have known := names_known accepted
  rw [NamesUnknown, not_or] at known
  obtain ⟨frameworks, providers⟩ := known
  have exists_of_named : ∀ n, c.NamesProvider config n → n ∈ Registry.standard.names :=
    fun n named => not_not.mp fun unknown => providers ⟨n, named, unknown⟩
  rw [eq_accepted accepted]
  exact {
    framework := fun name named => by
      by_contra neither
      rw [not_or, not_exists] at neither
      exact frameworks ⟨name, named, neither.1, neither.2⟩
    includeProviders := fun n mem => by
      rcases mem_of_mem_firstList mem with asked | set | none
      · exact exists_of_named n (.inl asked)
      · exact exists_of_named n (.inr (.inr (.inl set)))
      · cases none
    excludeProviders := fun n mem => by
      rcases mem_of_mem_firstList mem with asked | set | none
      · exact exists_of_named n (.inr (.inl asked))
      · exact exists_of_named n (.inr (.inr (.inr set)))
      · cases none
    maxFileSize := maxFileSizeOf_pos asked fun n => Config.maxFileSize_pos parsed
    publicPrefixes := nodup_distinctBy_id _ }

/-- A choice is refused just when it names what does not exist, and else its options are valid. A
refusal is told just when the display can read its line. -/
theorem options_settled [Text.Halves] [Console] [Console.Lawful] (c : Choice) (width : Nat)
    (parsed : Config.ofValue document path = .ok config)
    (asked : ∀ n, c.maxFileSize = some n → 1 ≤ n) :
    Ends (fun r => Refuses c config r ∧ Told width r) IsValid (c.options config) ∧
      ((∃ r, c.options config = .error r) ↔ c.NamesUnknown config) := by
  refine ⟨?_, options_refused_iff⟩
  cases settled : c.options config with
  | error r => exact .error ⟨options_error_iff.mp settled, r.told width⟩
  | ok o => exact .ok (isValid_accepted parsed asked settled)

/-- A choice that leaves out a provider, next to a configuration that leaves out one that does not
exist. -/
def excludingChoice : Choice where
  excludeProviders := ["shell"]
  maxFileSize := some 1

def excludingConfig : Config where
  excludeProviders := some ["perl"]

theorem options_settled_excluding :
    Config.ofValue (.map [(.text "scan", .map [(.text "excludeProviders", .text "perl")])]) none =
        .ok excludingConfig ∧
      excludingChoice.options excludingConfig = .error (.unknownProvider "perl") ∧
      ∃ text, refusal 80 (Refusal.unknownProvider "perl").message =
        .ok { status := 1, errors := text } := by
  have parsed : Config.ofValue
      (.map [(.text "scan", .map [(.text "excludeProviders", .text "perl")])]) none =
        .ok excludingConfig := by decide +kernel
  have refused : excludingChoice.options excludingConfig = .error (.unknownProvider "perl") := by
    decide +kernel
  have settled := options_settled excludingChoice 80 parsed (by simp [excludingChoice])
  obtain ⟨-, told⟩ := settled.1.failure refused
  obtain ⟨cs, shows⟩ := told.unmarked (by decide)
  exact ⟨parsed, refused, told.told cs shows⟩

/-- The name of the framework closes a style that is not open. -/
def closingChoice : Choice where
  framework := some "[/x]"

/-- The choice names what does not exist, but the run has no status and no line tells why. -/
theorem closingChoice_untold : Config.ofValue .null none = .ok {} ∧
    closingChoice.NamesUnknown {} ∧
    closingChoice.options {} = .error (.unknownFramework "[/x]") ∧
    ∀ width, ∃ e, refusal width (Refusal.unknownFramework "[/x]").message = .error e := by
  have refused : closingChoice.options {} = .error (.unknownFramework "[/x]") := by decide +kernel
  refine ⟨rfl, options_refused_iff.mp ⟨_, refused⟩, refused, fun width => ?_⟩
  have told := Refusal.told width (.unknownFramework "[/x]")
  obtain ⟨e, stops⟩ := told.unopened "" "x" "" (by decide) (by decide) (by decide)
  exact ⟨e, told.untold e stops⟩

end Choice

end EnvCensus
