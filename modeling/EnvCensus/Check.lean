import EnvCensus.Disk.Route
import EnvCensus.Dotenv
import EnvCensus.Finding
import EnvCensus.Options

/-! Checks of a declaration file: which required variables it leaves without a value.  A file that
cannot be read declares nothing. -/
namespace EnvCensus.Check

/-- The entries of the file that a path leads to. -/
def entriesOf (d : Disk) (here : Disk.Place) (path : String) (maxSize : Int) :
    List Dotenv.Entry :=
  ((d.readText? here path maxSize).map Dotenv.parse).getD []

/-- The names of the required variables. -/
def required (findings : List Finding) : List String :=
  (findings.filter (·.required)).map (·.name)

/-- The required variables that no entry gives a value. -/
def missing (findings : List Finding) (entries : List Dotenv.Entry) : List String :=
  (required findings).filter fun n => !entries.any fun e => e.hasValue && e.name == n

/-- The required variables that the file does not define. -/
def missingIn (d : Disk) (here : Disk.Place) (path : String) (findings : List Finding) :
    List String :=
  missing findings (entriesOf d here path defaultMaxFileSize)

end EnvCensus.Check
