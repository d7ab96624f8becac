import EnvCensus.Disk.Route
import EnvCensus.Failure
import EnvCensus.Pattern
import EnvCensus.Text.Lines
import EnvCensus.Text.Utf8

/-! Files that list what is to be ignored.  Such a file speaks of the paths below the folder that
holds it, as seen from there.  A path is ignored when one of the files that speak of it selects
it. -/
namespace EnvCensus

/-- The patterns of one such file, with the names from the root down to its folder. -/
structure Gitignore where
  base : List String
  patterns : List Pattern
  deriving DecidableEq, Repr

namespace Gitignore

/-- The path text of names, with a slash at its end for a folder. -/
def pathText (names : List String) (folder : Bool) : String :=
  "/".intercalate names ++ if folder then "/" else ""

/-- Whether the file ignores the path that the names from the root lead along. -/
def ignores (g : Gitignore) (names : List String) (folder : Bool) : Bool :=
  g.base.isPrefixOf names && g.base != names &&
    Pattern.selects g.patterns (pathText (names.drop g.base.length) folder)

/-- Whether one of the files ignores the path. -/
def isIgnored (gs : List Gitignore) (names : List String) (folder : Bool) : Bool :=
  gs.any fun g => g.ignores names folder

/-- The lines of a text with the line feeds that end them. -/
def endedLines (cs : List Char) : List String :=
  let pieces := Text.feedLines cs
  (pieces.dropLast.map fun p => String.ofList (p ++ ['\n'])) ++
    (pieces.getLast?.filter (· ≠ [])).toList.map String.ofList

/-- The patterns that the bytes of a file list; a file that is no text lists nothing. -/
def patternsOf (bytes : List UInt8) : Except Pattern.Fault (List Pattern) :=
  match Text.decode? bytes with
  | some cs => Pattern.parseAll (endedLines (Text.unifyBreaks cs))
  | none => .ok []

def fileName : String := ".gitignore"

/-- The list of a folder at a place, when it has one.  Up to `links` links are followed. -/
def ofFolder? (d : Disk) (links : Nat) (place : Disk.Place) (base : List String) :
    Except Failure (Option Gitignore) :=
  match d.routeFrom links place [fileName] with
  | .error _ => .ok none
  | .ok (file, _) =>
    match d.at? file with
    | some (.file bytes) => do
      let patterns ← (patternsOf bytes).mapError Failure.pattern
      return some ⟨base, patterns⟩
    | _ => .ok none

end Gitignore

end EnvCensus
