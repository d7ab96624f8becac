import EnvCensus.Disk.Write
import EnvCensus.Failure
import EnvCensus.Report.Format
import EnvCensus.Text.Utf8

/-! Output of a result: one file in a directory for each of the chosen formats.  All formats are
known before the first file is written. -/
namespace EnvCensus.Report

/-- The path of a file in a directory. -/
def pathIn (directory name : String) : String :=
  ((Path.parse directory).join (Path.parse name)).render

variable [Text.Halves]

/-- Writes a text to a file.  The file is opened before the text is: where that has no bytes, the
file is left empty. -/
def writeText (d : Disk) (here : Disk.Place) (path : String) (text : List Char) :
    Disk × Except Failure Unit :=
  let bytes := Text.encode? text
  match d.write here path (bytes.getD []) with
  | (d, false) => (d, .error (.unwritable path))
  | (d, true) => (d, if bytes.isSome then .ok () else .error .encoding)

/-- Writes the formats one after the other up to the first that cannot be written; the answer are
the paths that have been written. -/
def writeFormats (here : Disk.Place) (root : Option Disk.Place) (directory : String) (c : Census) :
    Disk → List Format → Disk × Except Failure (List String)
  | d, [] => (d, .ok [])
  | d, f :: rest =>
    let path := pathIn directory f.fileName
    match writeText d here path (f.text root c).toList with
    | (d, .error e) => (d, .error e)
    | (d, .ok ()) =>
      let (d, written) := writeFormats here root directory c d rest
      (d, written.map (path :: ·))

/-- Writes a result in the formats of the tags. -/
def write (d : Disk) (here : Disk.Place) (root : Option Disk.Place) (directory : String)
    (tags : List String) (c : Census) : Disk × Except Failure (List String) :=
  match Format.ofTags tags with
  | .error e => (d, .error (.config e))
  | .ok formats => writeFormats here root directory c d formats

end EnvCensus.Report
