import EnvCensus.Dotenv.Findings
import EnvCensus.Manifest.Findings
import EnvCensus.Script.Findings
import EnvCensus.Shell.Findings

/-! Providers.  A provider looks at one family of files and collects the findings in them.  The
four built-in ones read each file they handle by itself: a file without a text to read adds
nothing, one that cannot be parsed adds to the count of parse errors, and any other failure ends
the collection. -/
namespace EnvCensus

/-- What one provider found, with the number of files it could not parse and the number of files
it handled. -/
structure Provider.Output where
  findings : List Finding := []
  parseErrors : Nat := 0
  filesScanned : Nat := 0
  deriving DecidableEq, Repr

/-- What a collection may look at: the directory that relative paths are read from and the text
of each file, absent when the file is unreadable, too large or binary. -/
structure Provider.Shelf where
  here : String
  text : String → Option String

structure Provider where
  name : String
  source : Source
  extensions : List String
  handles : String → Bool
  collect : Provider.Shelf → List String → Options → Except Failure Provider.Output

namespace Provider

/-- A way to find variables in the text of one file: the directory to read paths from, the text,
the path and the options. -/
abbrev Reading := String → String → String → Options → Except Failure (List Finding)

/-- What reading one file adds. -/
def collectFile (reading : Reading) (shelf : Shelf) (options : Options) (path : String) :
    Except Failure Output :=
  match (shelf.text path).filter (· ≠ "") with
  | none => .ok { filesScanned := 1 }
  | some content =>
    match reading shelf.here content path options with
    | .ok findings => .ok { findings, filesScanned := 1 }
    | .error e => if e.isParseFailure then .ok { parseErrors := 1, filesScanned := 1 } else .error e

/-- Two outputs, one after the other. -/
def Output.append (a b : Output) : Output :=
  ⟨a.findings ++ b.findings, a.parseErrors + b.parseErrors, a.filesScanned + b.filesScanned⟩

/-- The outputs of all files, in order. -/
def collectAll (reading : Reading) (shelf : Shelf) (options : Options) :
    List String → Except Failure Output
  | [] => .ok {}
  | path :: rest => do
    let first ← collectFile reading shelf options path
    return first.append (← collectAll reading shelf options rest)

/-- The provider that reads each file it handles by itself. -/
def ofReading (name : String) (source : Source) (extensions : List String)
    (handles : String → Bool) (reading : Reading) : Provider where
  name
  source
  extensions
  handles
  collect shelf files options := collectAll reading shelf options (files.filter handles)

variable [Parsers]

/-- Scripts and component files. -/
def script : Provider := ofReading "ast" .ast Script.extensions Script.handles Script.scan

/-- Declaration files. -/
def dotenv : Provider := ofReading "dotenv" .dotenv [".env"] Dotenv.handles Dotenv.scan

/-- Deployment manifests. -/
def manifest : Provider :=
  ofReading "yaml" .docker Manifest.extensions Manifest.handles Manifest.scan

/-- Shell scripts and start-up files. -/
def shell : Provider := ofReading "shell" .shell Shell.extensions Shell.handles Shell.scan

/-- The built-in providers; findings are joined in this order. -/
def builtIn : List Provider := [script, dotenv, manifest, shell]

end Provider

end EnvCensus

/-! Registries: providers in the order of registration, one for each name.  A provider that is
registered under a name already taken stands in the place of the old one. -/
namespace EnvCensus

structure Registry where
  providers : List Provider

namespace Registry

/-- What is said of a provider without a name. -/
def namelessMessage : String := "Provider must have a non-empty name"

def empty : Registry := ⟨[]⟩

/-- The providers with one more, in the place of its name or at the end. -/
def place (p : Provider) : List Provider → List Provider
  | [] => [p]
  | q :: rest => if q.name == p.name then p :: rest else q :: place p rest

/-- The registry with one more provider; a provider without a name is refused. -/
def register? (r : Registry) (p : Provider) : Option Registry :=
  if p.name == "" then none else some ⟨place p r.providers⟩

def unregister (r : Registry) (name : String) : Registry :=
  ⟨r.providers.filter fun p => p.name != name⟩

def get? (r : Registry) (name : String) : Option Provider :=
  r.providers.find? fun p => p.name == name

def names (r : Registry) : List String := r.providers.map (·.name)

/-- Whether the options let a provider of this name take part; an empty list of included
providers includes all. -/
def admits (options : Options) (name : String) : Bool :=
  (options.includeProviders.isEmpty || options.includeProviders.contains name) &&
    !options.excludeProviders.contains name

/-- The providers that take part under the options. -/
def enabled (r : Registry) (options : Options) : List Provider :=
  r.providers.filter fun p => admits options p.name

/-- The registry of the built-in providers. -/
def standard [Parsers] : Registry := ⟨Provider.builtIn⟩

end Registry

end EnvCensus
