import EnvCensus.Data.Value

/-! What can be wrong with a configuration or with an option that stands for one. -/
namespace EnvCensus.Config

inductive Fault where
  | rootNotMapping
  | sectionNotMapping (key : String)
  | notStrings (option : String)
  | notPositive
  | notText (option : String)
  | unknownFormats (formats : List String)
  | unknownFormat (format : String)
  | missingFile (path : String)
  | unreadable (path : String)
  deriving DecidableEq, Repr

namespace Fault

def message : Fault → String
  | rootNotMapping => "Configuration root must be a mapping"
  | sectionNotMapping key => s!"'{key}' must be a mapping"
  | notStrings option => s!"'{option}' must be a string or a list of strings"
  | notPositive => "'scan.maxFileSize' must be a positive integer"
  | notText option => s!"'{option}' must be a string"
  | unknownFormats formats => "Unknown output format(s): " ++ ", ".intercalate formats
  | unknownFormat format => "Unknown output format: " ++ format
  | missingFile path => "Config file not found: " ++ path
  | unreadable _ => "Failed to load config file"

/-- The option at fault, if one is. -/
def option : Fault → Option String
  | rootNotMapping => none
  | sectionNotMapping key => some key
  | notStrings option => some option
  | notPositive => some "scan.maxFileSize"
  | notText option => some option
  | unknownFormats _ => some "output.formats"
  | unknownFormat _ => some "format"
  | missingFile _ => some "config"
  | unreadable _ => some "config"

end Fault

end EnvCensus.Config

/-! Configurations of a project.  A configuration is read from a mapping; what it does not set is
absent, keys that are not known are ignored, and the first setting of a wrong kind is the fault. -/
namespace EnvCensus

structure Config where
  includePatterns : Option (List String) := none
  excludePatterns : Option (List String) := none
  maxFileSize : Option Int := none
  framework : Option String := none
  includeProviders : Option (List String) := none
  excludeProviders : Option (List String) := none
  publicPrefixes : Option (List String) := none
  formats : Option (List String) := none
  directory : Option String := none
  /-- The file that the configuration was read from. -/
  path : Option String := none
  deriving DecidableEq, Repr

namespace Config

/-- The formats that reports are written in. -/
def outputFormats : List String := ["env", "json", "md"]

/-- A list of texts, one text standing for the list of it alone. -/
def textList (option : String) (v : Value) : Except Fault (Option (List String)) :=
  match v.unrolled with
  | .null => .ok none
  | .text s => .ok (some [s])
  | .list items =>
    match items.mapM fun item => match item with | .text s => some s | _ => none with
    | some ss => .ok (some ss)
    | none => .error (.notStrings option)
  | _ => .error (.notStrings option)

def textOf (option : String) : Value → Except Fault (Option String)
  | .null => .ok none
  | .text s => .ok (some s)
  | _ => .error (.notText option)

def sizeOf : Value → Except Fault (Option Int)
  | .null => .ok none
  | .int n => if n ≤ 0 then .error .notPositive else .ok (some n)
  | _ => .error .notPositive

/-- A section of the document; a missing one has no settings. -/
def sectionOf (document : Value) (key : String) : Except Fault Value :=
  match (document.field key).unrolled with
  | .null => .ok (.map [])
  | .map entries => .ok (.map entries)
  | _ => .error (.sectionNotMapping key)

def knownFormats (formats : Option (List String)) : Except Fault Unit :=
  match (formats.getD []).filter fun f => !outputFormats.contains f && f != "all" with
  | [] => .ok ()
  | unknown => .error (.unknownFormats unknown)

/-- The configuration that a mapping describes. -/
def ofMapping (document : Value) (path : Option String) : Except Fault Config := do
  let scan ← sectionOf document "scan"
  let output ← sectionOf document "output"
  let maxFileSize ← sizeOf (scan.field "maxFileSize")
  let framework ← textOf "scan.framework" (scan.field "framework")
  let formats ← textList "output.formats" (output.field "formats")
  knownFormats formats
  let directory ← textOf "output.dir" (output.field "dir")
  let includePatterns ← textList "scan.include" (scan.field "include")
  let excludePatterns ← textList "scan.exclude" (scan.field "exclude")
  let includeProviders ← textList "scan.includeProviders" (scan.field "includeProviders")
  let excludeProviders ← textList "scan.excludeProviders" (scan.field "excludeProviders")
  let publicPrefixes ← textList "publicPrefixes" (document.field "publicPrefixes")
  return { includePatterns, excludePatterns, maxFileSize, framework, includeProviders,
           excludeProviders, publicPrefixes, formats, directory, path }

/-- The configuration that a document describes. -/
def ofValue (document : Value) (path : Option String) : Except Fault Config :=
  match document.unrolled with
  | .null => .ok { path }
  | .map _ => ofMapping document path
  | _ => .error .rootNotMapping

end Config

end EnvCensus
