/-! Logging.  A logger that is set up takes every record when it is to be verbose and warnings
otherwise; the handler that shows records is attached once, however often it is set up. -/
namespace EnvCensus

inductive LogLevel where
  | all
  | debug
  | warning
  deriving DecidableEq, Repr

structure Logger where
  level : LogLevel := .all
  handlers : Nat := 0
  /-- Whether records go on to the loggers above. -/
  propagates : Bool := true
  deriving DecidableEq, Repr

namespace Logger

/-- The number of a level; a record is taken when its own number is not below it. -/
def levelNumber : LogLevel → Nat
  | .all => 0
  | .debug => 10
  | .warning => 30

def setUp (verbose : Bool) (l : Logger) : Logger :=
  let l := { l with level := if verbose then .debug else .warning }
  if l.handlers == 0 then { l with handlers := 1, propagates := false } else l

end Logger

end EnvCensus
