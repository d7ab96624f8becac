import EnvCensus.Failure
import EnvCensus.Finding.Merge
import EnvCensus.Options
import EnvCensus.Parsers
import EnvCensus.Script.Access
import EnvCensus.Script.Embedded

/-! Findings in scripts and component files.  The observations of one file that share source and
name make one finding; it is required when no access is guarded, and its default is the first
that is not empty. -/
namespace EnvCensus.Script

/-- An observation with line and column from one. -/
structure Sighting where
  observation : Observation
  line : Nat
  column : Nat

def Sighting.key (s : Sighting) : Source × String := (s.observation.source, s.observation.name)

/-- The finding for the observations of one source and one name. -/
def findingOf (here path : String) (options : Options) (key : Source × String)
    (group : List Sighting) : Except Failure Finding := do
  let refs ← group.mapM fun s =>
    Failure.ofRange (FileRef.make here path s.line s.column s.observation.context none)
  let required := !group.any fun s => s.observation.guarded
  let default := group.findSome? fun s => s.observation.default.filter (· ≠ "")
  Failure.ofBreach (Finding.make key.2 (.source key.1) refs required default
    (Name.isPublic key.2 options.publicPrefixes) [])

/-- One finding for each source and name, in the order of first observations. -/
def findingsOf (here path : String) (options : Options) (sightings : List Sighting) :
    Except Failure (List Finding) :=
  (distinctBy id (sightings.map Sighting.key)).mapM fun key =>
    findingOf here path options key (sightings.filter fun s => s.key == key)

/-- Component files, which hold scripts among other things. -/
def componentSuffixes : List String := [".vue", ".svelte", ".astro"]

def dialectOf (suffix : String) : Dialect :=
  if [".ts", ".mts", ".cts"].contains suffix then .typescript
  else if suffix == ".tsx" then .tsx
  else .javascript

/-- The observations of a parsed script with their places in it. -/
def sightings (source : List Char) (root : Tree) : Except EscapeFault (List Sighting) :=
  (walk root).map fun found =>
    let table := lineTable source
    found.map fun o =>
      let (line, column) := table.position o.start
      ⟨o, line, column⟩

variable [Parsers]

def scanSource (here path : String) (options : Options) (d : Dialect) (source : List Char) :
    Except Failure (List Finding) := do
  match Parsers.tree d source with
  | none => throw (.script d path)
  | some root =>
    let found ← (sightings source root).mapError Failure.escape
    findingsOf here path options found

/-- The findings of a script or a component file; a component file without a script has none. -/
def scan (here content path : String) (options : Options) : Except Failure (List Finding) :=
  let suffix := Text.lowerAscii (Path.parse path).suffix
  if componentSuffixes.contains suffix then
    let (source, d) := extract content.toList suffix
    if Text.trim source = [] then .ok [] else scanSource here path options d source
  else scanSource here path options (dialectOf suffix) content.toList

def extensions : List String :=
  [".js", ".jsx", ".ts", ".tsx", ".mjs", ".cjs", ".vue", ".svelte", ".astro"]

/-- Scripts and component files, declarations of types apart. -/
def handles (path : String) : Bool :=
  !".d.ts".toList.isSuffixOf (Text.lowerAscii path).toList &&
    extensions.contains (Text.lowerAscii (Path.parse path).suffix)

end EnvCensus.Script
