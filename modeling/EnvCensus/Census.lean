import EnvCensus.Finding
import EnvCensus.Data.Json

/-! The result of a scan: the findings, one for each variable, and the figures of the scan.  The
form in which results are exchanged leaves out what is absent. -/
namespace EnvCensus

/-- Figures of a scan; the lists have one figure for each source or provider. -/
structure Tally where
  totalFiles : Int := 0
  totalFindings : Int := 0
  parseErrors : Int := 0
  milliseconds : Int := 0
  bySource : List (String × Int) := Source.all.map fun s => (s.tag, 0)
  filesByProvider : List (String × Int) := []
  findingsByProvider : List (String × Int) := []
  deriving DecidableEq, Repr

structure Census where
  findings : List Finding
  tally : Tally
  scannedAt : String
  framework : Option String := none
  deriving DecidableEq, Repr

namespace FileRef

def toJson (r : FileRef) : Json :=
  .object ([("filePath", .text r.path), ("line", .int r.line), ("column", .int r.column)] ++
    (r.context.map fun c => ("context", .text c)).toList ++
    (r.hint.map fun h => ("hint", .text h)).toList)

end FileRef

namespace Finding

def toJson (f : Finding) : Json :=
  .object ([("name", .text f.name), ("source", .text f.source.tag),
      ("files", .list (f.files.map FileRef.toJson)), ("required", .bool f.required),
      ("isPublic", .bool f.isPublic)] ++
    (f.defaultValue.map fun d => ("defaultValue", .text d)).toList ++
    (if f.notes.isEmpty then [] else [("notes", .list (f.notes.map .text))]))

end Finding

namespace Tally

def figures (fs : List (String × Int)) : Json := .object (fs.map fun (k, n) => (k, .int n))

def toJson (t : Tally) : Json :=
  .object [("totalFiles", .int t.totalFiles), ("totalFindings", .int t.totalFindings),
    ("parseErrors", .int t.parseErrors), ("scanTimeMs", .int t.milliseconds),
    ("countsBySource", figures t.bySource), ("filesByProvider", figures t.filesByProvider),
    ("findingsByProvider", figures t.findingsByProvider)]

end Tally

namespace Census

def fields (c : Census) : List (String × Json) :=
  [("findings", .list (c.findings.map Finding.toJson)), ("stats", c.tally.toJson),
    ("scannedAt", .text c.scannedAt)] ++
  (c.framework.map fun f => ("framework", .text f)).toList

def toJson (c : Census) : Json := .object c.fields

end Census

end EnvCensus
