import EnvCensus.Config
import EnvCensus.Finding
import EnvCensus.Pattern
import EnvCensus.Script.Literal
import EnvCensus.Yaml.Fault

/-! Failures: everything that can stop a scan or a part of it.  A file that cannot be parsed is
skipped and counted; every other failure ends what it occurs in. -/
namespace EnvCensus

/-- The name of a dialect in messages. -/
def Script.Dialect.label : Script.Dialect → String
  | .javascript => "javascript"
  | .typescript => "typescript"
  | .tsx => "tsx"

inductive Failure where
  | script (dialect : Script.Dialect) (path : String)
  | document (path : String) (mark : Option Yaml.Mark)
  | scalar (fault : Yaml.ScalarFault)
  | escape (fault : Script.EscapeFault)
  | breach (breach : Breach)
  | outOfRange (fault : FileRef.OutOfRange)
  | noDirectory (path : String)
  | unwritable (path : String)
  | config (fault : Config.Fault)
  | pattern (fault : Pattern.Fault)
  | linkCircle (path : String)
  | encoding
  | markup
  | provider (name : String)
  deriving DecidableEq, Repr

namespace Failure

/-- Whether the failure concerns a single file that cannot be parsed. -/
def isParseFailure : Failure → Bool
  | script .. => true
  | document .. => true
  | _ => false

def message : Failure → String
  | script d _ => s!"Failed to parse {d.label} source"
  | document _ _ => "Failed to parse YAML"
  | scalar _ => "A scalar has the form of a value that does not exist"
  | escape _ => "An escape names no character"
  | breach b => b.message
  | outOfRange e => e.message
  | noDirectory path => "Directory does not exist: " ++ path
  | unwritable path => "Failed to write " ++ path
  | config f => f.message
  | pattern (.invalid text) => "Invalid pattern: " ++ text
  | pattern (.badRange text) => "Reversed range in pattern: " ++ text
  | linkCircle path => "Links lead in a circle: " ++ path
  | encoding => "A text has no bytes, or bytes no text"
  | markup => "A tag cannot be closed"
  | provider name => s!"Provider {name} failed"

def ofBreach {α : Type} : Except Breach α → Except Failure α := Except.mapError breach

def ofRange {α : Type} : Except FileRef.OutOfRange α → Except Failure α :=
  Except.mapError outOfRange

end Failure

end EnvCensus
