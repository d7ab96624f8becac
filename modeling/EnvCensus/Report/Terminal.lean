import EnvCensus.Census
import EnvCensus.Display.Markup
import EnvCensus.Display.Table
import EnvCensus.Display.Wrap
import EnvCensus.Failure
import EnvCensus.Framework

/-! The reading of marked-up text by a display.  Reports are laid out from what is read; how tags are
read, and which texts stop the display, is its own. -/
namespace EnvCensus

/-- How a display reads a marked-up text: what the text shows, or how it fails. -/
class Console where
  read : String → Except Failure (List Char)

/-- The failure of a faulty tag. -/
def Failure.ofTag : Display.Markup.Fault → Failure
  | .unopened => markup
  | .parameters => markup
  | .noNumber part => scalar (.notNumber (String.ofList part))

instance : Console := ⟨fun s => (Display.Markup.read s).mapError Failure.ofTag⟩

end EnvCensus

/-! Reports for a terminal without colours: a panel with the figures of a scan, the number of
variables of each source and a table of the variables.  Names, sources and defaults are read as
marked-up text. -/
namespace EnvCensus.Report.Terminal

open Display

/-- Lines as printed, none of them beyond the width of the display. -/
def printed (width : Nat) (lines : List (List Char)) : String :=
  String.join (lines.map fun line =>
    String.ofList ((if cells line ≤ width then line else fit width line) ++ ['\n']))

/-- A text as printed, in as many lines as it takes. -/
def textLines (width : Nat) (cs : List Char) : List (List Char) := wrap width .fold .free cs

variable [Console]

/-- A marked-up text as printed. -/
def message (width : Nat) (s : String) : Except Failure String := do
  return printed width (textLines width (← Console.read s))

/-- Defaults that are longer are cut. -/
def defaultLimit : Nat := 40

def shortened (s : String) : String :=
  if s.length ≤ defaultLimit then s
  else String.ofList (s.toList.take (defaultLimit - 1)) ++ "…"

/-- The figures of a scan. -/
def summaryText (c : Census) (target : String) : String :=
  let required := c.findings.countP (·.required)
  let exposed := c.findings.countP (·.isPublic)
  let framework := (c.framework.filter (· ≠ "")).map fun tag =>
    s!"Framework: {((Framework.ofTag? tag).map Framework.name).getD tag}"
  "\n".intercalate ([s!"Target: {target}"] ++ framework.toList ++
    [s!"Files scanned: {c.tally.totalFiles}",
     s!"Variables found: {c.tally.totalFindings} ({required} required, {exposed} public)",
     s!"Parse errors: {c.tally.parseErrors}", s!"Scan time: {c.tally.milliseconds}ms"])

def summaryLines (width : Nat) (c : Census) (target : String) : List (List Char) :=
  panel width "Environment Audit".toList (Markup.withoutControls (summaryText c target).toList)

/-- The style in which a source is shown. -/
def sourceStyle (source : String) : String :=
  ([("ast", "cyan"), ("process", "cyan"), ("importmeta", "blue"), ("dotenv", "green"),
    ("docker", "magenta"), ("gha", "yellow"), ("shell", "white")].lookup source).getD "white"

/-- A text between tags of a style. -/
def styled (style text : String) : String := s!"[{style}]{text}[/{style}]"

/-- The number of variables of each source that has any. -/
def countLines (width : Nat) (c : Census) : Except Failure (List (List Char)) := do
  match c.tally.bySource.filter fun f => f.2 > 0 with
  | [] => return []
  | counts =>
    let rows ← counts.mapM fun (source, n) => do
      return [← Console.read (styled (sourceStyle source) source), (toString n).toList]
    let table : Table :=
      { columns := [⟨"Source", .left, some 14⟩, ⟨"Variables", .right, some 10⟩]
        rows
        bordered := false }
    return [] :: textLines width "◆ Variables by source".toList ++ table.lines width

def tick (b : Bool) : List Char := if b then ['✓'] else ['-']

/-- The cells of one variable. -/
def findingCells (f : Finding) : Except Failure (List (List Char)) := do
  let name ← Console.read f.name
  let default ← Console.read (shortened (f.defaultValue.getD ""))
  return [name, tick f.required, tick f.isPublic, f.source.tag.toList, default,
    (toString f.files.length).toList]

def findingsTable (rows : List (List (List Char))) : Table :=
  { columns := [⟨"Variable", .left, none⟩, ⟨"Required", .center, none⟩, ⟨"Public", .center, none⟩,
      ⟨"Source", .left, none⟩, ⟨"Default", .left, none⟩, ⟨"Files", .right, none⟩]
    rows }

/-- The table of the variables. -/
def findingLines (width : Nat) (fs : List Finding) :
    Except Failure (List (List Char)) := do
  return (findingsTable (← fs.mapM findingCells)).lines width

def findingsText (width : Nat) (fs : List Finding) : Except Failure String := do
  return printed width (← findingLines width fs)

/-- The figures of a scan, as printed before its variables. -/
def overviewText (width : Nat) (c : Census) (target : String) :
    Except Failure String := do
  return printed width ([] :: summaryLines width c target ++ (← countLines width c))

/-- The variables of a scan, as printed below its figures. -/
def variablesText (width : Nat) (c : Census) (withFindings : Bool) :
    Except Failure String := do
  let table ← if withFindings then findingLines width c.findings else pure []
  let table := if withFindings && !c.findings.isEmpty then [] :: table else []
  return printed width (table ++ [[]])

/-- The report on a scan. -/
def censusText (width : Nat) (c : Census) (target : String) (withFindings : Bool) :
    Except Failure String := do
  return (← overviewText width c target) ++ (← variablesText width c withFindings)

/-- The report on the required variables that a file does not define. -/
def checkText (width required : Nat) (missing : List String) (file : String) :
    Except Failure String := do
  let head ← message width (styled "dim" ("Checking against: " ++ file))
  let figures := printed width (["Required variables: " ++ toString required,
    "Missing variables: " ++ toString missing.length].flatMap fun s => textLines width s.toList)
  let names ← Console.read ("\n".intercalate (missing.map ("✗ " ++ ·)))
  let verdict :=
    if missing.isEmpty then textLines width "✓ All required variables are defined".toList
    else panel width "Missing required variables".toList names
  return head ++ figures ++ "\n" ++ printed width verdict

end EnvCensus.Report.Terminal
