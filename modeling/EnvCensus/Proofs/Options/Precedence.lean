import EnvCensus.Options.Choice
import EnvCensus.Proofs.Distinct
import EnvCensus.Proofs.Except

/-!
# Precedence of settings

A choice of options is accepted when the framework and the providers that it
names exist; the options are then put together field by field. What is asked for
comes before what the configuration sets, and this before the default; prefixes
that are asked for are added to the others. A configuration is not always heard:
a list of patterns that it sets to nothing, and a size that it sets to zero, are
passed over for the default.
-/

namespace EnvCensus.Choice

/-! ### When options are accepted -/

/-- The options of an accepted choice. -/
def accepted (c : Choice) (config : Config) : Options where
  publicPrefixes := distinctBy id (config.publicPrefixes.getD defaultPublicPrefixes ++ c.publicPrefixes)
  maxFileSize := c.maxFileSizeOf config
  includeProviders := firstList c.providers config.includeProviders []
  excludeProviders := firstList c.excludeProviders config.excludeProviders []
  includePatterns := firstList c.includePatterns config.includePatterns defaultIncludePatterns
  excludePatterns := firstList c.excludePatterns config.excludePatterns defaultExcludePatterns
  followSymlinks := c.followSymlinks
  framework := c.effectiveFramework config

/-- A framework that does not exist is refused first, then the first such provider. -/
theorem options_eq (c : Choice) (config : Config) :
    c.options config =
      match ((c.effectiveFramework config).filter (· ≠ "")).filter
          fun name => (Framework.ofTag? name).isNone with
      | some name => .error (.unknownFramework name)
      | none =>
        match (c.namedProviders config).find? fun n => !Registry.standard.names.contains n with
        | some name => .error (.unknownProvider name)
        | none => .ok (c.accepted config) := by
  unfold options
  simp only
  cases (c.effectiveFramework config).filter (· ≠ "") with
  | none =>
    cases (c.namedProviders config).find? (fun n => !Registry.standard.names.contains n) <;> rfl
  | some name =>
    rw [Option.filter_some]
    simp only
    cases (Framework.ofTag? name).isNone with
    | true => rfl
    | false =>
      cases (c.namedProviders config).find? (fun n => !Registry.standard.names.contains n) <;> rfl

theorem eq_accepted {c : Choice} {config : Config} {o : Options} (h : c.options config = .ok o) :
    o = c.accepted config := by
  rw [options_eq] at h
  split at h
  · cases h
  · split at h
    · cases h
    · cases h
      rfl

/-! ### What comes first -/

/-- What is asked for, else what is set, else the default. -/
def firstOf {α : Type} (asked set : Option α) (otherwise : α) : α := (asked.or set).getD otherwise

/-- A list that asks for something. -/
def asks (ss : List String) : Option (List String) := if ss = [] then none else some ss

/-- The size that is asked for; none is asked for by zero. -/
def askedSize (c : Choice) : Option Int := c.maxFileSize.filter (· ≠ 0)

/-- Every setting is the first of what is asked for, what the configuration sets and the default. -/
structure TakesFirst (c : Choice) (config : Config) (o : Options) : Prop where
  includePatterns : o.includePatterns =
    firstOf (asks c.includePatterns) config.includePatterns defaultIncludePatterns
  excludePatterns : o.excludePatterns =
    firstOf (asks c.excludePatterns) config.excludePatterns defaultExcludePatterns
  maxFileSize : o.maxFileSize = firstOf c.askedSize config.maxFileSize defaultMaxFileSize
  framework : o.framework = (c.framework.filter (· ≠ "")).or config.framework
  includeProviders : o.includeProviders = firstOf (asks c.providers) config.includeProviders []
  excludeProviders : o.excludeProviders =
    firstOf (asks c.excludeProviders) config.excludeProviders []
  publicPrefixes : o.publicPrefixes =
    (config.publicPrefixes.getD defaultPublicPrefixes ++ c.publicPrefixes).eraseDups

/-- What the configuration sets is passed over: a list of patterns is set to nothing or the size to
zero, and nothing is asked for in its place. -/
def PassesOver (c : Choice) (config : Config) : Prop :=
  (c.includePatterns = [] ∧ config.includePatterns = some []) ∨
  (c.excludePatterns = [] ∧ config.excludePatterns = some []) ∨
  (c.askedSize = none ∧ config.maxFileSize = some 0)

/-- The configuration as far as it is heard. -/
def heard (config : Config) : Config :=
  { config with
    includePatterns := config.includePatterns.filter (· ≠ [])
    excludePatterns := config.excludePatterns.filter (· ≠ [])
    maxFileSize := config.maxFileSize.filter (· ≠ 0) }

/-- A value that is not heard matters when it would be the first and is not the default. -/
theorem firstOf_filter_iff {α : Type} [DecidableEq α] (asked set : Option α)
    (blank otherwise : α) :
    firstOf asked (set.filter (· ≠ blank)) otherwise = firstOf asked set otherwise ↔
      ¬ (asked = none ∧ set = some blank) ∨ otherwise = blank := by
  cases asked with
  | some a => simp [firstOf]
  | none =>
    cases set with
    | none => simp [firstOf]
    | some s =>
      by_cases same : s = blank
      · simp [firstOf, same, Option.filter]
      · simp [firstOf, same, Option.filter]

theorem firstList_eq (asked : List String) (set : Option (List String))
    (otherwise : List String) :
    firstList asked set otherwise = firstOf (asks asked) (set.filter (· ≠ [])) otherwise := by
  unfold firstList firstOf asks
  cases asked with
  | cons s ss => simp
  | nil =>
    cases set with
    | none => simp
    | some ss => cases ss <;> simp [Option.filter]

theorem asks_eq_none {ss : List String} : asks ss = none ↔ ss = [] := by
  simp [asks]

/-- The options of an accepted choice heed what is heard of the configuration. -/
theorem accepted_takesFirst (c : Choice) (config : Config) :
    TakesFirst c (heard config) (c.accepted config) where
  includePatterns := firstList_eq ..
  excludePatterns := firstList_eq ..
  maxFileSize := rfl
  framework := rfl
  includeProviders := by
    refine (firstList_eq ..).trans ?_
    exact (firstOf_filter_iff (asks c.providers) config.includeProviders [] []).mpr (Or.inr rfl)
  excludeProviders := by
    refine (firstList_eq ..).trans ?_
    exact (firstOf_filter_iff (asks c.excludeProviders) config.excludeProviders [] []).mpr
      (Or.inr rfl)
  publicPrefixes := distinctBy_eq_eraseDupsBy _

/-- The options of an accepted choice follow the precedence for all that is heard of the
configuration. They follow it for the whole configuration just when nothing is passed over. -/
theorem options_takeFirst {c : Choice} {config : Config} {o : Options}
    (accepted : c.options config = .ok o) :
    TakesFirst c (heard config) o ∧ (TakesFirst c config o ↔ ¬ PassesOver c config) := by
  rw [eq_accepted accepted]
  have heeds := accepted_takesFirst c config
  refine ⟨heeds, ?_⟩
  have patterns : defaultIncludePatterns ≠ [] ∧ defaultExcludePatterns ≠ [] := by decide
  have size : defaultMaxFileSize ≠ 0 := by decide
  have included := firstOf_filter_iff (asks c.includePatterns) config.includePatterns []
    defaultIncludePatterns
  have excluded := firstOf_filter_iff (asks c.excludePatterns) config.excludePatterns []
    defaultExcludePatterns
  have sized := firstOf_filter_iff c.askedSize config.maxFileSize 0 defaultMaxFileSize
  simp only [patterns.1, patterns.2, size, or_false, asks_eq_none] at included excluded sized
  unfold PassesOver
  rw [not_or, not_or, ← included, ← excluded, ← sized]
  constructor
  · intro whole
    exact ⟨heeds.includePatterns.symm.trans whole.includePatterns,
      heeds.excludePatterns.symm.trans whole.excludePatterns,
      heeds.maxFileSize.symm.trans whole.maxFileSize⟩
  · rintro ⟨included, excluded, sized⟩
    exact { heeds with
      includePatterns := heeds.includePatterns.trans included
      excludePatterns := heeds.excludePatterns.trans excluded
      maxFileSize := heeds.maxFileSize.trans sized }

/-- A choice that asks for some settings, next to a configuration that sets some of them as well. -/
def layeredChoice : Choice where
  includePatterns := ["*.ts"]
  publicPrefixes := ["APP_", "VITE_"]

def layeredConfig : Config where
  includePatterns := some ["*.js"]
  excludePatterns := some ["gen/"]
  maxFileSize := some 2048
  framework := some "vite"
  includeProviders := some []

theorem options_takeFirst_layered : ∃ o, layeredChoice.options layeredConfig = .ok o ∧
    TakesFirst layeredChoice layeredConfig o ∧ o.includePatterns = ["*.ts"] ∧
    o.excludePatterns = ["gen/"] ∧ o.maxFileSize = 2048 ∧ o.framework = some "vite" ∧
    o.publicPrefixes = defaultPublicPrefixes ++ ["APP_"] := by
  have accepted : layeredChoice.options layeredConfig =
      .ok (layeredChoice.accepted layeredConfig) := by decide +kernel
  have first : TakesFirst layeredChoice layeredConfig (layeredChoice.accepted layeredConfig) := by
    refine (options_takeFirst accepted).2.mpr ?_
    simp [PassesOver, layeredChoice, layeredConfig, askedSize]
  exact ⟨_, accepted, first, first.includePatterns, first.excludePatterns, first.maxFileSize,
    first.framework, first.publicPrefixes⟩

/-- A configuration file that wants no file to be looked at. -/
def emptyInclude : Config where
  includePatterns := some []

/-- An empty list of patterns is passed over for the default patterns. -/
theorem emptyInclude_passed_over :
    Config.ofValue (.map [(.text "scan", .map [(.text "include", .list [])])]) none =
        .ok emptyInclude ∧
      ({} : Choice).options emptyInclude = .ok {} ∧ ¬ TakesFirst {} emptyInclude {} := by
  refine ⟨by decide +kernel, by decide +kernel, fun first => ?_⟩
  have included : defaultIncludePatterns = [] := first.includePatterns
  cases included

end EnvCensus.Choice
