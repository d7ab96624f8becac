import EnvCensus.Config
import EnvCensus.Finding.Merge
import EnvCensus.Framework
import EnvCensus.Options
import EnvCensus.Provider

/-! The options of a run, put together from what was asked for, what the configuration sets and
the defaults, in this order of precedence.  Prefixes that are asked for are added to the others. -/
namespace EnvCensus

/-- What was asked for; an empty list and an empty text ask for nothing. -/
structure Choice where
  includePatterns : List String := []
  excludePatterns : List String := []
  framework : Option String := none
  publicPrefixes : List String := []
  maxFileSize : Option Int := none
  followSymlinks : Bool := false
  providers : List String := []
  excludeProviders : List String := []
  deriving DecidableEq, Repr

namespace Choice

/-- Names that are asked for and do not exist. -/
inductive Refusal where
  | unknownFramework (name : String)
  | unknownProvider (name : String)
  deriving DecidableEq, Repr

def sortedTexts (ss : List String) : List String :=
  ss.mergeSort fun a b => Collation.textLe a.toList b.toList

def providerNames : List String := sortedTexts Registry.standard.names

def Refusal.message : Refusal → String
  | unknownFramework name =>
    let known := ", ".intercalate (Framework.all.map Framework.tag)
    s!"Unknown framework: {name} (choose from {known})"
  | unknownProvider name =>
    let known := ", ".intercalate providerNames
    s!"Unknown provider: {name} (choose from {known})"

/-- The first non-empty list. -/
def firstList (asked : List String) (set : Option (List String)) (otherwise : List String) :
    List String :=
  if !asked.isEmpty then asked
  else if (set.getD []).isEmpty then otherwise
  else set.getD []

def effectiveFramework (c : Choice) (config : Config) : Option String :=
  (c.framework.filter (· ≠ "")).or config.framework

/-- Every provider that is named somewhere, in the order in which they are looked at. -/
def namedProviders (c : Choice) (config : Config) : List String :=
  c.providers ++ c.excludeProviders ++ config.includeProviders.getD [] ++
    config.excludeProviders.getD []

def maxFileSizeOf (c : Choice) (config : Config) : Int :=
  ((c.maxFileSize.filter (· ≠ 0)).or (config.maxFileSize.filter (· ≠ 0))).getD defaultMaxFileSize

/-- The options of a run. -/
def options (c : Choice) (config : Config) : Except Refusal Options := do
  let framework := c.effectiveFramework config
  match framework.filter (· ≠ "") with
  | some name => if (Framework.ofTag? name).isNone then throw (.unknownFramework name)
  | none => pure ()
  match (c.namedProviders config).find? fun n => !Registry.standard.names.contains n with
  | some name => throw (.unknownProvider name)
  | none => pure ()
  return {
    publicPrefixes :=
      distinctBy id (config.publicPrefixes.getD defaultPublicPrefixes ++ c.publicPrefixes)
    maxFileSize := c.maxFileSizeOf config
    includeProviders := firstList c.providers config.includeProviders []
    excludeProviders := firstList c.excludeProviders config.excludeProviders []
    includePatterns := firstList c.includePatterns config.includePatterns defaultIncludePatterns
    excludePatterns := firstList c.excludePatterns config.excludePatterns defaultExcludePatterns
    followSymlinks := c.followSymlinks
    framework }

end Choice

end EnvCensus
