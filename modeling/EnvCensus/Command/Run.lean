import EnvCensus.Census.Scan
import EnvCensus.Check
import EnvCensus.Command
import EnvCensus.Config.Loading
import EnvCensus.Display.Sequence
import EnvCensus.Report.Output
import EnvCensus.Report.Terminal

/-! Runs of commands.  A run prints to an output and a log of errors and ends with a status: zero,
one for what is refused or found missing, two for a command line that is no command.  What is
refused is told in one line; any other failure ends the run without a status.  The log takes every
text, the output only those that have bytes. -/
namespace EnvCensus.Command

/-- Where a command runs: the disk, the directory, the time and the width of the display. -/
structure Setting where
  disk : Disk
  here : Disk.Place
  clock : Clock
  width : Nat

/-- What a run prints and how it ends. -/
structure Printed where
  status : Nat := 0
  output : String := ""
  errors : String := ""
  deriving DecidableEq, Repr

/-- Why a run stops early. -/
inductive Stop where
  | refused (message : String)
  | failed (f : Failure)

/-- Failures that are told in one line. -/
def Stop.ofFailure (f : Failure) : Stop :=
  match f with
  | .script .. => .refused f.message
  | .document .. => .refused f.message
  | .breach _ => .refused f.message
  | .noDirectory _ => .refused f.message
  | .unwritable _ => .refused f.message
  | .config _ => .refused f.message
  | _ => .failed f

/-- The status of a refused run. -/
def refusedStatus : Nat := 1

variable [Parsers] [Text.Halves] [Console]

/-- A text as the log takes it. -/
def logged (text : String) : String := String.ofList (Text.toldHalves text.toList)

/-- A text as the output takes it. -/
def emit (text : String) : Except Failure String :=
  if Text.isWhole text.toList then .ok text else .error .encoding

/-- The line that tells a refusal. -/
def refusalLine (message : String) : String :=
  Report.Terminal.styled "red" "Error:" ++ " " ++ message

def refusal (width : Nat) (message : String) : Except Failure Printed := do
  return {
    status := refusedStatus
    errors := logged (← Report.Terminal.message width (refusalLine message)) }

def settled (width : Nat) : Except Stop Printed → Except Failure Printed
  | .ok p => .ok p
  | .error (.refused message) => refusal width message
  | .error (.failed f) => .error f

def told {α : Type} (r : Except Failure α) : Except Stop α := r.mapError Stop.ofFailure

def shownText {α : Type} (r : Except Failure α) : Except Stop α := r.mapError Stop.failed

/-- The place of the project to look at. -/
def projectPlace (s : Setting) (target : String) : Except Stop Disk.Place :=
  match s.disk.settle s.here target with
  | none => .error (.failed (.linkCircle target))
  | some place =>
    match s.disk.at? place with
    | none => .error (.refused s!"Path does not exist: {target}")
    | some (.folder _) => .ok place
    | some _ => .error (.refused s!"Path is not a directory: {target}")

/-- A project with its configuration, the scan of it and the place of it. -/
structure Surveyed where
  place : Disk.Place
  config : Config
  census : Census

/-- Scans a project under what was asked for. -/
def survey (s : Setting) (target : String) (named : Option String) (choice : Choice) :
    Except Stop Surveyed := do
  let place ← projectPlace s target
  let root := Disk.pathOf place
  let config ← told (Config.load s.disk s.here root named)
  let options ← (choice.options config).mapError fun r => Stop.refused r.message
  let census ← told (Census.scan s.disk s.here s.clock Registry.standard (.directory root) options)
  return { place, config, census }

/-- Directory of the reports when none is named. -/
def defaultDirectory : String := "env-docs"

def directoryOf (c : Scan) (config : Config) : String :=
  (Path.parse (((c.output.filter (· ≠ "")).or (config.directory.filter (· ≠ ""))).getD
    defaultDirectory)).render

/-- The line of a written file. -/
def writtenLine (path : String) : String :=
  "  " ++ Report.Terminal.styled "green" "✓" ++ " " ++ path

/-- The list of the written files. -/
def writtenText (width : Nat) (paths : List String) :
    Except Failure String := do
  let head ← emit (← Report.Terminal.message width "Generated files:")
  let lines ← paths.mapM fun p => do emit (← Report.Terminal.message width (writtenLine p))
  return head ++ String.join lines

/-- What a scan prints before it writes its reports. -/
def scanText (s : Setting) (c : Scan) (census : Census) :
    Except Failure String := do
  if c.json then emit (Report.jsonText c.target census)
  else
    let overview ← emit (← Report.Terminal.overviewText s.width census c.target)
    return overview ++ (← emit (← Report.Terminal.variablesText s.width census true))

def runScan (s : Setting) (c : Scan) : Disk × Except Failure Printed :=
  let prepared := do
    let found ← survey s c.target c.config c.choice
    return (found, ← shownText (scanText s c found.census))
  match prepared with
  | .error stop => (s.disk, settled s.width (.error stop))
  | .ok (found, text) =>
    let formats := Choice.firstList c.formats found.config.formats ["env"]
    let (disk, written) := Report.write s.disk s.here (some found.place)
      (directoryOf c found.config) formats found.census
    match told written with
    | .error (.failed f) => (disk, .error f)
    | .error (.refused message) =>
      (disk, (refusal s.width message).map fun p => { p with output := text })
    | .ok paths =>
      (disk, do
        if c.json then return { output := text }
        return { output := text ++ (← writtenText s.width paths) })

/-- The path of the declaration file to check. -/
def envPath (place : Disk.Place) (file : String) : String :=
  ((Path.mk .slash place).join (Path.parse file)).render

def runCheck (s : Setting) (c : Check) : Except Stop Printed := do
  let found ← survey s c.target c.config c.choice
  let path := envPath found.place c.envFile
  let errors ←
    if s.disk.isFileAt s.here path then pure ""
    else shownText ((Report.Terminal.message s.width
      (Report.Terminal.styled "yellow" "Warning:" ++ " Env file not found: " ++ path)).map logged)
  let findings := found.census.findings
  let missing := EnvCensus.Check.missingIn s.disk s.here path findings
  let output ← shownText do
    emit (← Report.Terminal.checkText s.width (EnvCensus.Check.required findings).length missing path)
  return { status := if c.strict && !missing.isEmpty then refusedStatus else 0, output, errors }

/-- The ways to print variables. -/
def printFormats : List String := ["table", "json", "env", "list"]

/-- A line as it is printed where there is no terminal. -/
def echoed (line : String) : String :=
  String.ofList (Display.withoutSequences (line ++ "\n").toList)

/-- The line of a variable in a list. -/
def listLine (f : Finding) : String :=
  echoed ((if f.required then "[REQUIRED]" else "[OPTIONAL]") ++
    (if f.isPublic then "[PUBLIC]" else "") ++ " " ++ f.name)

/-- The line of a variable as a declaration. -/
def declarationLine (f : Finding) : String := echoed (f.name ++ "=" ++ f.defaultValue.getD "")

def printText (s : Setting) (format : String) (findings : List Finding) :
    Except Failure String :=
  match format with
  | "json" => .ok (echoed (Json.list (findings.map Finding.toJson)).render)
  | "env" => .ok (String.join (findings.map declarationLine))
  | "list" => .ok (String.join (findings.map listLine))
  | _ => Report.Terminal.findingsText s.width findings

def runPrint (s : Setting) (c : Print) : Except Stop Printed := do
  if !printFormats.contains c.format then
    let known := ", ".intercalate printFormats
    throw (.refused s!"Unknown format: {c.format} (choose from {known})")
  match c.source.filter fun t => t ≠ "" && (Source.ofTag? t).isNone with
  | some t =>
    let known := ", ".intercalate (Source.all.map Source.tag)
    throw (.refused s!"Unknown source: {t} (choose from {known})")
  | none => pure ()
  let found ← survey s c.target c.config c.choice
  let findings := Report.filterFindings c.source c.requiredOnly c.publicOnly found.census.findings
  return { output := ← shownText do emit (← printText s c.format findings) }

def versionText : String := "envaudit v0.1.0"

/-- Runs a command; the disk is changed by what it writes. -/
def run (s : Setting) : Command → Disk × Except Failure Printed
  | scan c => runScan s c
  | check c => (s.disk, settled s.width (runCheck s c))
  | print c => (s.disk, settled s.width (runPrint s c))
  | version => (s.disk, .ok { output := versionText ++ "\n" })

/-- The status of a run whose words are no command. -/
def usageStatus : Nat := 2

/-- Runs the words of a command line. -/
def runWords (s : Setting) (words : List String) : Disk × Except Failure Printed :=
  match read words with
  | some c => run s c
  | none => (s.disk, .ok { status := usageStatus })

end EnvCensus.Command
