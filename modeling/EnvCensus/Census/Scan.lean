import EnvCensus.Census
import EnvCensus.Discovery
import EnvCensus.Disk.Route
import EnvCensus.Framework
import EnvCensus.Provider

/-! Scans.  A scan of a directory discovers the files to look at, a scan of a list looks at the
files of the list; then every enabled provider collects its findings and the findings of all of
them are merged.  A provider that fails counts as one that finds nothing. -/
namespace EnvCensus

/-- What is scanned. -/
inductive Target where
  | directory (path : String)
  | files (paths : List String)
  deriving DecidableEq, Repr

/-- When a scan took place and how long it took. -/
structure Clock where
  time : String
  milliseconds : Int
  deriving DecidableEq, Repr

namespace Census

/-- The options with the prefixes that a framework makes public. -/
def withFramework (options : Options) (framework : Option Framework) : Options :=
  match framework with
  | some f =>
    { options with publicPrefixes := distinctBy id (options.publicPrefixes ++ f.publicPrefixes) }
  | none => options

/-- The framework that the options name, or else the one that the project shows. -/
def frameworkOf (d : Disk) (here : Disk.Place) (directory : String) (options : Options) :
    Option String :=
  (options.framework.filter (· ≠ "")).or
    ((Framework.detect? d here directory).map Framework.tag)

/-- The outputs of the enabled providers with their names, in the order of registration. -/
def outputs (shelf : Provider.Shelf) (registry : Registry) (files : List String)
    (options : Options) : List (String × Provider.Output) :=
  (registry.enabled options).map fun p =>
    (p.name, match p.collect shelf files options with | .ok o => o | .error _ => {})

/-- The number of findings with each source. -/
def countBySource (findings : List Finding) : List (String × Int) :=
  Source.all.map fun s => (s.tag, ((findings.countP fun f => f.source == s : Nat) : Int))

/-- The result of a scan from the outputs of the providers. -/
def assemble (clock : Clock) (fileCount : Nat) (framework : Option String)
    (outputs : List (String × Provider.Output)) : Except Failure Census := do
  let findings ← Failure.ofBreach (Finding.mergeAll (outputs.flatMap fun o => o.2.findings))
  let tally : Tally :=
    { totalFiles := fileCount
      totalFindings := findings.length
      parseErrors := (outputs.foldr (fun o n => o.2.parseErrors + n) 0 : Nat)
      milliseconds := clock.milliseconds
      bySource := countBySource findings
      filesByProvider := outputs.map fun o => (o.1, (o.2.filesScanned : Int))
      findingsByProvider := outputs.map fun o => (o.1, (o.2.findings.length : Int)) }
  return { findings, tally, scannedAt := clock.time, framework }

/-- The files a provider may look at under the options. -/
def shelfOf (d : Disk) (here : Disk.Place) (options : Options) : Provider.Shelf where
  here := Disk.pathOf here
  text path := d.readText? here path options.maxFileSize

/-- The result of scanning the files. -/
def ofFiles (d : Disk) (here : Disk.Place) (clock : Clock) (registry : Registry)
    (framework : Option String) (options : Options) (files : List String) :
    Except Failure Census :=
  assemble clock files.length framework
    (outputs (shelfOf d here options) registry files options)

/-- Texts in order, each of them once. -/
def sortedSet (texts : List String) : List String :=
  (distinctBy id texts).mergeSort fun a b => Collation.textLe a.toList b.toList

/-- What a scan works on: the tag of a framework, the options with what the framework adds to them
and the files. -/
structure Plan where
  tag : Option String
  options : Options
  files : List String

/-- The plan of the scan of a target; only a directory can be without one. -/
def plan (d : Disk) (here : Disk.Place) (target : Target) (options : Options) :
    Except Failure Plan :=
  match target with
  | .directory path =>
    match d.settle here path with
    | none => .error (.linkCircle path)
    | some place => do
      let root := Disk.pathOf place
      let tag := frameworkOf d here root options
      let framework := tag.bind Framework.ofTag?
      let options := withFramework options framework
      let files ← Discovery.files d here root options
        ((framework.map Framework.includePatterns).getD [])
        ((framework.map Framework.excludePatterns).getD [])
      return { tag, options, files }
  | .files paths => .ok
    { tag := options.framework
      options := withFramework options (options.framework.bind Framework.ofTag?)
      files := sortedSet (paths.map (Path.absolute (Disk.pathOf here))) }

/-- Scans a target from the directory `here`. -/
def scan (d : Disk) (here : Disk.Place) (clock : Clock) (registry : Registry) (target : Target)
    (options : Options) : Except Failure Census := do
  let plan ← plan d here target options
  ofFiles d here clock registry plan.tag plan.options plan.files

end Census

end EnvCensus
