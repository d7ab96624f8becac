import EnvCensus.Census
import EnvCensus.Config
import EnvCensus.Disk.Route
import EnvCensus.Finding
import EnvCensus.Finding.Merge
import EnvCensus.Text.Blank

/-! Locations as reports show them: the path of a reference, seen from the root of the project
when it lies below it, and the line. -/
namespace EnvCensus.Report

/-- The path of a reference as seen from a root. -/
def shownPath (root : Option Disk.Place) (path : String) : String :=
  match root.bind fun r => Path.below? ⟨.slash, r⟩ (Path.parse path) with
  | some names => (Path.mk .relative names).render
  | none => path

def location (root : Option Disk.Place) (r : FileRef) : String :=
  s!"{shownPath root r.path}:{r.line}"

end EnvCensus.Report

/-! Example declaration files: every variable with its default, the required ones first, and above
each of them in comments what is known of it. -/
namespace EnvCensus.Report.EnvExample

/-- Values that are put between quotes. -/
def needsQuotes (cs : List Char) : Bool :=
  cs.any [' ', '#', '\t', '"', '\''].contains || cs != Text.trim cs

/-- One character between quotes. -/
def escaped (c : Char) : List Char := if c == '\\' || c == '"' then ['\\', c] else [c]

/-- The written form of a value. -/
def valueText (value : String) : String :=
  if needsQuotes value.toList then
    String.ofList ('"' :: value.toList.flatMap escaped ++ ['"'])
  else value

/-- The number of locations that are named. -/
def listedLocations : Nat := 3

def usedIn (root : Option Disk.Place) (refs : List FileRef) : String :=
  let listed := (refs.take listedLocations).map (location root)
  let further := refs.length - listed.length
  "# Used in: " ++ ", ".intercalate listed ++ if further > 0 then s!" (+{further} more)" else ""

/-- The lines of one variable. -/
def entryLines (root : Option Disk.Place) (f : Finding) : List String :=
  f.notes.map ("# " ++ ·) ++
  (if f.isPublic then ["# Public: exposed to client-side code"] else []) ++
  [usedIn root f.files, f.name ++ "=" ++ valueText (f.defaultValue.getD "")]

/-- The lines of a group of variables, if there are any. -/
def groupLines (root : Option Disk.Place) (title : String) (fs : List Finding) : List String :=
  if fs.isEmpty then []
  else [s!"# ---- {title} ----", ""] ++ fs.flatMap fun f => entryLines root f ++ [""]

/-- The text without the line feeds at its end. -/
def withoutFeeds (s : String) : String :=
  String.ofList (s.toList.reverse.dropWhile (· == '\n')).reverse

def text (root : Option Disk.Place) (c : Census) : String :=
  let lines := ["# Environment variables", s!"# Generated by envaudit on {c.scannedAt}", ""] ++
    groupLines root "Required" (c.findings.filter (·.required)) ++
    groupLines root "Optional" (c.findings.filter (!·.required))
  withoutFeeds ("\n".intercalate lines) ++ "\n"

end EnvCensus.Report.EnvExample

/-! Documents in Markdown: a table of all variables and a section for each of them. -/
namespace EnvCensus.Report.Markdown

/-- A text in a cell of a table, where a bar would end the cell. -/
def cellText (s : String) : String :=
  String.ofList (s.toList.flatMap fun c => if c == '|' then ['\\', '|'] else [c])

/-- The default of a variable, when it is not empty. -/
def shownDefault (f : Finding) : Option String := f.defaultValue.filter (· ≠ "")

def capitalYes (b : Bool) : String := if b then "Yes" else "No"

def plainYes (b : Bool) : String := if b then "yes" else "no"

def row (f : Finding) : String :=
  let default := ((shownDefault f).map fun d => s!"`{cellText d}`").getD ""
  s!"| `{f.name}` | {capitalYes f.required} | {capitalYes f.isPublic} | {default} | {f.source.tag} |"

def locationLine (root : Option Disk.Place) (r : FileRef) : String :=
  let context := ((r.context.filter (· ≠ "")).map fun c => s!" ({c})").getD ""
  s!"  - `{location root r}`{context}"

/-- The lines of one variable's section. -/
def sectionLines (root : Option Disk.Place) (f : Finding) : List String :=
  [s!"## {f.name}", ""] ++ (f.notes.flatMap fun n => [s!"> {n}", ""]) ++
  [s!"- **Required:** {plainYes f.required}", s!"- **Public:** {plainYes f.isPublic}"] ++
  ((shownDefault f).map fun d => s!"- **Default:** `{d}`").toList ++
  ["- **Locations:**"] ++ f.files.map (locationLine root) ++ [""]

def tableHead : List String :=
  ["| Variable | Required | Public | Default | Source |",
   "|----------|----------|--------|---------|--------|"]

def text (root : Option Disk.Place) (c : Census) : String :=
  let required := c.findings.countP (·.required)
  let head := ["# Environment Variables", "",
    s!"{c.findings.length} variables found ({required} required) in {c.tally.totalFiles} files.",
    ""]
  let body :=
    if c.findings.isEmpty then []
    else tableHead ++ c.findings.map row ++ [""] ++ c.findings.flatMap (sectionLines root)
  "\n".intercalate (head ++ body)

end EnvCensus.Report.Markdown

/-! Schemas: a description of the environment as an object with one property for each variable. -/
namespace EnvCensus.Report.Schema

def description (f : Finding) : String :=
  let notes := "; ".intercalate f.notes
  if notes == "" then s!"Referenced in {f.files.length} location(s)" else notes

def property (f : Finding) : Json :=
  .object ([("type", .text "string"), ("description", .text (description f)),
      ("x-public", .bool f.isPublic), ("x-source", .text f.source.tag)] ++
    (f.defaultValue.map fun d => ("default", .text d)).toList)

def schema (c : Census) : Json :=
  .object [("$schema", .text "http://json-schema.org/draft-07/schema#"),
    ("title", .text "Environment variables"), ("type", .text "object"),
    ("properties", Json.ofFields (c.findings.map fun f => (f.name, property f))),
    ("required", .list ((c.findings.filter (·.required)).map fun f => .text f.name)),
    ("additionalProperties", .bool true)]

def text (c : Census) : String := (schema c).render ++ "\n"

end EnvCensus.Report.Schema

/-! Formats that results are written in.  Each has a file name of its own; a list of format tags
stands for the formats in it, each taken once. -/
namespace EnvCensus.Report

inductive Format where
  | env
  | json
  | md
  deriving DecidableEq, Repr

namespace Format

def all : List Format := [env, json, md]

def tag : Format → String
  | env => "env"
  | json => "json"
  | md => "md"

def fileName : Format → String
  | env => ".env.example"
  | json => "schema.json"
  | md => "README.md"

/-- The text of a result in a format; locations are seen from the root. -/
def text (root : Option Disk.Place) (c : Census) : Format → String
  | env => EnvExample.text root c
  | json => Schema.text c
  | md => Markdown.text root c

/-- The formats that one tag stands for. -/
def ofTag (t : String) : Except Config.Fault (List Format) :=
  if t == "all" then .ok all
  else
    match all.find? fun f => f.tag == t with
    | some f => .ok [f]
    | none => .error (.unknownFormat t)

/-- The formats of a list of tags, in the order of their first occurrence. -/
def ofTags (tags : List String) : Except Config.Fault (List Format) := do
  return distinctBy id (← tags.mapM ofTag).flatten

end Format

/-- The result as one object with the target of the scan in front. -/
def jsonText (target : String) (c : Census) : String :=
  (Json.object (("target", .text target) :: c.fields)).render ++ "\n"

/-- The findings of these properties. -/
def filterFindings (source : Option String) (requiredOnly publicOnly : Bool)
    (fs : List Finding) : List Finding :=
  fs.filter fun f =>
    ((source.filter (· ≠ "")).all fun s => f.source.tag == s) &&
      (!requiredOnly || f.required) && (!publicOnly || f.isPublic)

end EnvCensus.Report
