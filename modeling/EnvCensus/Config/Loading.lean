import EnvCensus.Config
import EnvCensus.Disk.Route
import EnvCensus.Failure
import EnvCensus.Parsers

/-! Loading of configurations.  A configuration stands in the first of the known files at the root
of a project, or in a file that is named outright and then has to be there. -/
namespace EnvCensus.Config

def fileNames : List String := [".env-audit.yaml", ".env-audit.yml", ".env-audit.json"]

/-- The path of a file at the root of a project. -/
def pathAt (root name : String) : String := ((Path.parse root).join (Path.parse name)).render

/-- The configuration file of a project. -/
def file? (d : Disk) (here : Disk.Place) (root : String) : Option String :=
  fileNames.find? fun name => d.isFileAt here (pathAt root name)

variable [Parsers]

/-- The document of a configuration file. -/
def documentOf (path : String) (bytes : List UInt8) : Except Failure Value :=
  match Parsers.file bytes with
  | .ok v => .ok v
  | .error .undecodable => .error .encoding
  | .error (.faulty (.scalar e)) => .error (.scalar e)
  | .error (.faulty (.malformed _ _)) => .error (.config (.unreadable path))

def ofBytes (path : String) (bytes : List UInt8) : Except Failure Config := do
  (ofValue (← documentOf path bytes) (some path)).mapError Failure.config

/-- The configuration of the project at a root; `named` is the file that is named outright. -/
def load (d : Disk) (here : Disk.Place) (root : String) (named : Option String) :
    Except Failure Config :=
  match named with
  | some text =>
    let path := (Path.parse text).render
    match d.bytes? here path with
    | some bytes => ofBytes path bytes
    | none => .error (.config (.missingFile path))
  | none =>
    match file? d here root with
    | none => .ok {}
    | some name =>
      let path := pathAt root name
      match d.bytes? here path with
      | some bytes => ofBytes path bytes
      | none => .ok {}

end EnvCensus.Config
