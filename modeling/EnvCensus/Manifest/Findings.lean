import EnvCensus.Failure
import EnvCensus.Manifest
import EnvCensus.Options
import EnvCensus.Parsers

/-! Findings in deployment manifests.  A document keeps no places, so the line of a finding is the
place of its entry among those beside it.  A variable of a service is required when it has no
value; one of a workflow never is, since its value can be overridden.  What is written out has to
be writable. -/
namespace EnvCensus.Manifest

/-- The declarations with valid names, each with its place from one. -/
def placed (ds : List Declaration) : List (Declaration × Nat) :=
  (ds.mapIdx fun i d => (d, i + 1)).filter fun e => Name.isValid e.1.name

def nonEmpty (v : Option String) : Option String := v.filter (· ≠ "")

/-- The finding of one declaration; `required` tells whether a missing value is required. -/
def findingOf (here path : String) (options : Options) (source : Source) (required : Bool)
    (context : String) (hint : Option String) (d : Declaration × Nat) : Except Failure Finding := do
  let ref ← Failure.ofRange (FileRef.make here path d.2 1 (some context) hint)
  Failure.ofBreach (Finding.make d.1.name (.source source) [ref]
    (required && (nonEmpty d.1.value).isNone) (nonEmpty d.1.value)
    (Name.isPublic d.1.name options.publicPrefixes) [])

/-- The findings with notes on the first of them. -/
def annotate (notes : List String) : List Finding → List Finding
  | [] => []
  | f :: rest => { f with notes := f.notes ++ notes } :: rest

/-- Fails at the first value that cannot be written out. -/
def writeOut : List Value → Except Failure Unit
  | [] => .ok ()
  | v :: vs =>
    if v.isWritable then writeOut vs else .error (.scalar (.tooManyDigits v.display))

/-- The findings of one service; what is no mapping has none. -/
def serviceFindings (here path : String) (options : Options) (s : Value × Value) :
    Except Failure (List Finding) := do
  if !s.2.isMap then return []
  writeOut (writtenService s)
  let found ← (placed (declarations (s.2.field "environment"))).mapM
    (findingOf here path options .docker true ("Service: " ++ s.1.display) none)
  return annotate ((envFiles s.2).map fun v => "env_file: " ++ v.display) found

/-- The findings of a block of environment entries in a workflow. -/
def blockFindings (here path : String) (options : Options) (context : String)
    (hint : Option String) (env : List (Value × Value)) : Except Failure (List Finding) := do
  writeOut (env.flatMap writtenEntry)
  (placed (env.map entryDeclaration)).mapM (findingOf here path options .gha false context hint)

/-- The findings of a step, whose place in its job is `n`. -/
def stepFindings (here path : String) (options : Options) (job : String) (n : Nat) (step : Value) :
    Except Failure (List Finding) := do
  let name := (some (step.field "name")).filter fun v => !v.isEmpty
  writeOut name.toList
  let hint := name.map Value.display
  blockFindings here path options s!"Job: {job}, Step: {n}" hint (step.field "env").entriesOf

def jobFindings (here path : String) (options : Options) (j : Value × Value) :
    Except Failure (List Finding) := do
  if !j.2.isMap then return []
  writeOut [j.1]
  let job := j.1.display
  let own ← blockFindings here path options s!"Job: {job}" none (j.2.field "env").entriesOf
  let found ← ((stepsOf j.2).mapIdx fun i s => (i + 1, s)).mapM fun (n, s) =>
    stepFindings here path options job n s
  return own ++ found.flatten

/-- The findings of a manifest, in the order of its declarations. -/
def findings (here path : String) (options : Options) : Manifest → Except Failure (List Finding)
  | compose services => do return (← services.mapM (serviceFindings here path options)).flatten
  | workflow env jobs => do
    let own ← blockFindings here path options "Workflow environment" none env
    return own ++ (← jobs.mapM (jobFindings here path options)).flatten
  | unrecognized _ => .ok []

/-- The failure of a file whose document cannot be read. -/
def documentFailure (path : String) : Yaml.Fault → Failure
  | .malformed _ mark => .document path mark
  | .scalar e => .scalar e

def scan [Parsers] (here content path : String) (options : Options) :
    Except Failure (List Finding) := do
  let document ← (Parsers.document content).mapError (documentFailure path)
  findings here path options (decode path document)

def extensions : List String := [".yml", ".yaml"]

def handles (path : String) : Bool :=
  extensions.contains (Text.lowerAscii (Path.parse path).suffix)

end EnvCensus.Manifest
