import EnvCensus.Command.Line
import EnvCensus.Options.Choice
import EnvCensus.Text.Blank

/-! Commands: to scan a project and write reports, to check a declaration file, to print the
variables and to show the version.  A command is read from the words of a command line. -/
namespace EnvCensus

/-- What to scan, what to look for and where to write the reports. -/
structure Command.Scan where
  target : String := "."
  output : Option String := none
  formats : List String := []
  choice : Choice := {}
  config : Option String := none
  json : Bool := false
  deriving DecidableEq, Repr

/-- Which declaration file to check against which project. -/
structure Command.Check where
  target : String := "."
  envFile : String := ".env"
  strict : Bool := false
  choice : Choice := {}
  config : Option String := none
  deriving DecidableEq, Repr

/-- Which variables to print and how. -/
structure Command.Print where
  target : String := "."
  format : String := "table"
  source : Option String := none
  requiredOnly : Bool := false
  publicOnly : Bool := false
  choice : Choice := {}
  config : Option String := none
  deriving DecidableEq, Repr

inductive Command where
  | scan (c : Command.Scan)
  | check (c : Command.Check)
  | print (c : Command.Print)
  | version
  deriving DecidableEq, Repr

namespace Command

def scanOptions : List OptionSpec :=
  [⟨["--output", "-o"], true⟩, ⟨["--format", "-f"], true⟩, ⟨["--include"], true⟩,
   ⟨["--exclude"], true⟩, ⟨["--framework"], true⟩, ⟨["--public-prefix"], true⟩,
   ⟨["--max-file-size"], true⟩, ⟨["--follow-symlinks"], false⟩, ⟨["--providers"], true⟩,
   ⟨["--exclude-providers"], true⟩, ⟨["--config"], true⟩, ⟨["--json"], false⟩,
   ⟨["--verbose", "-v"], false⟩]

def checkOptions : List OptionSpec :=
  [⟨["--env-file"], true⟩, ⟨["--strict"], false⟩, ⟨["--framework"], true⟩, ⟨["--config"], true⟩,
   ⟨["--verbose", "-v"], false⟩]

def printOptions : List OptionSpec :=
  [⟨["--format", "-f"], true⟩, ⟨["--source"], true⟩, ⟨["--required-only"], false⟩,
   ⟨["--public-only"], false⟩, ⟨["--framework"], true⟩, ⟨["--config"], true⟩,
   ⟨["--verbose", "-v"], false⟩]

/-- Digits with single underscores between them. -/
def digitsOf? : List Char → Option (List Char)
  | [] => none
  | [c] => if c.isDigit then some [c] else none
  | c :: '_' :: rest => if c.isDigit then (digitsOf? rest).map (c :: ·) else none
  | c :: rest => if c.isDigit then (digitsOf? rest).map (c :: ·) else none

/-- The number that a text writes, with an optional sign and blanks around it. -/
def integerOf? (s : String) : Option Int :=
  let number (cs : List Char) : Option Nat :=
    (digitsOf? cs).map fun ds => ds.foldl (fun n c => 10 * n + (c.toNat - 48)) 0
  match Text.trim s.toList with
  | '-' :: cs => (number cs).map fun n => -(n : Int)
  | '+' :: cs => (number cs).map Int.ofNat
  | cs => (number cs).map Int.ofNat

/-- The only argument, or the current directory. -/
def targetOf? (l : Line) : Option String :=
  match l.arguments with
  | [] => some "."
  | [t] => some t
  | _ => none

/-- The size limit that is asked for: absent when none is, no value at all when it is not a
positive number. -/
def sizeOf? (l : Line) : Option (Option Int) :=
  match l.value? "--max-file-size" with
  | none => some none
  | some s => ((integerOf? s).filter (1 ≤ ·)).map some

def readScan (words : List String) : Option Scan := do
  let l ← Line.read scanOptions words
  let target ← targetOf? l
  let maxFileSize ← sizeOf? l
  return {
    target
    output := l.value? "--output"
    formats := l.values "--format"
    config := l.value? "--config"
    json := l.has "--json"
    choice := {
      includePatterns := l.values "--include"
      excludePatterns := l.values "--exclude"
      framework := l.value? "--framework"
      publicPrefixes := l.values "--public-prefix"
      maxFileSize
      followSymlinks := l.has "--follow-symlinks"
      providers := l.values "--providers"
      excludeProviders := l.values "--exclude-providers" } }

def readCheck (words : List String) : Option Check := do
  let l ← Line.read checkOptions words
  return {
    target := ← targetOf? l
    envFile := (l.value? "--env-file").getD ".env"
    strict := l.has "--strict"
    choice := { framework := l.value? "--framework" }
    config := l.value? "--config" }

def readPrint (words : List String) : Option Print := do
  let l ← Line.read printOptions words
  return {
    target := ← targetOf? l
    format := (l.value? "--format").getD "table"
    source := l.value? "--source"
    requiredOnly := l.has "--required-only"
    publicOnly := l.has "--public-only"
    choice := { framework := l.value? "--framework" }
    config := l.value? "--config" }

/-- Reads a command; absent when the words are not those of one. -/
def read (words : List String) : Option Command :=
  match words with
  | "scan" :: rest => (readScan rest).map scan
  | "check" :: rest => (readCheck rest).map check
  | "print" :: rest => (readPrint rest).map print
  | ["version"] => some version
  | ["version", "--"] => some version
  | _ => none

end Command

end EnvCensus
