import EnvCensus.Data.Value
import EnvCensus.Name
import EnvCensus.Path
import EnvCensus.Text.Blank
import EnvCensus.Text.Case

/-! Deployment manifests: files that declare services and workflows of jobs.  The path of a file
tells its kind, the document in it gives the contents; a part of the wrong shape counts as empty. -/
namespace EnvCensus

/-- Why a document is no manifest. -/
inductive Manifest.Reason where
  | notMapping
  | otherFile
  deriving DecidableEq, Repr

inductive Manifest where
  | compose (services : List (Value × Value))
  | workflow (env jobs : List (Value × Value))
  | unrecognized (reason : Manifest.Reason)
  deriving Repr

namespace Manifest

def Reason.message : Reason → String
  | notMapping => "document is not a mapping"
  | otherFile => "not a compose file or CI workflow"

/-- Files of services have names with the word `compose` in them. -/
def isComposePath (path : String) : Bool :=
  Text.contains "compose".toList (Text.lowerAscii (Path.parse path).name).toList

/-- Files of workflows lie below a directory of that name. -/
def isWorkflowPath (path : String) : Bool :=
  (Path.parse path).parent.segments.contains "workflows"

/-- The manifest in a file: services before workflows. -/
def decode (path : String) (document : Value) : Manifest :=
  if !document.isMap then unrecognized .notMapping
  else if isComposePath path then compose (document.field "services").entriesOf
  else if isWorkflowPath path then
    workflow (document.field "env").entriesOf (document.field "jobs").entriesOf
  else unrecognized .otherFile

/-- The text of a scalar in the environment of a process; other values have none. -/
def scalarText : Value → Option String
  | .bool b => some (if b then "true" else "false")
  | .text s => some s
  | .int n => some (toString n)
  | .float x => some (String.ofList x.text)
  | _ => none

/-- One entry of an environment: the text of its key, and its value if it has one. -/
structure Declaration where
  name : String
  value : Option String
  deriving DecidableEq, Repr

/-- An item of a list: a name, or a name and a value on one line. -/
def itemDeclaration? (item : Value) : Option Declaration :=
  match Name.split (Text.trim item.display.toList) with
  | some (name, []) => some ⟨String.ofList name, none⟩
  | some (name, '=' :: rest) =>
    if rest.contains '\n' then none else some ⟨String.ofList name, some (String.ofList rest)⟩
  | _ => none

def entryDeclaration (e : Value × Value) : Declaration := ⟨e.1.display, scalarText e.2⟩

/-- The declarations in the environment of a service, in their order. -/
def declarations (environment : Value) : List Declaration :=
  match environment.unrolled with
  | .list items => items.filterMap itemDeclaration?
  | .map entries => entries.map entryDeclaration
  | _ => []

/-- The path in a reference to an environment file, short or long. -/
def envFilePath (v : Value) : Value :=
  match v.unrolled with
  | .map entries => (Value.lookup entries (.text "path")).getD (.text "")
  | _ => v

/-- What a field for environment files refers to: the items of a list, or one value, unless it is
empty. -/
def references (field : Value) : List Value :=
  match field.unrolled with
  | .list items => items
  | _ => if field.isEmpty then [] else [field]

/-- The paths of the environment files of a service. -/
def envFiles (service : Value) : List Value :=
  (references (service.field "env_file")).map envFilePath

/-- The steps of a job. -/
def stepsOf (job : Value) : List Value :=
  match (job.field "steps").unrolled with
  | .list steps => steps
  | _ => []

/-! ### What is written out

The names of services and jobs, the items and keys of environments, the integers among their
values and the paths of environment files are written out; nothing else of a manifest is. -/

/-- The integer that an entry gives, if it gives one. -/
def writtenValue : Value → List Value
  | .int n => [.int n]
  | _ => []

/-- What is written out of the environment of a service. -/
def writtenEnvironment (environment : Value) : List Value :=
  match environment.unrolled with
  | .list items => items
  | .map entries => entries.flatMap fun e => e.1 :: writtenValue e.2
  | _ => []

/-- What is written out of a service. -/
def writtenService (s : Value × Value) : List Value :=
  s.1 :: writtenEnvironment (s.2.field "environment") ++ envFiles s.2

/-- What is written out of an entry of a block; the value of an entry without a valid name is not
looked at. -/
def writtenEntry (e : Value × Value) : List Value :=
  e.1 :: if Name.isValid e.1.display then writtenValue e.2 else []

end Manifest

end EnvCensus
