/-! Paths of files, purely as texts.  A path is a root and the segments after it; empty segments
and single dots carry no meaning and are dropped when a path is read.  Two slashes at the front,
and no more than two, are a root of their own. -/
namespace EnvCensus

inductive Path.Root where
  | relative
  | slash
  | doubleSlash
  deriving DecidableEq, Repr

structure Path where
  root : Path.Root
  segments : List String
  deriving DecidableEq, Repr

namespace Path

/-- The pieces of a text between slashes. -/
def slashPieces : List Char → List (List Char)
  | [] => [[]]
  | '/' :: rest => [] :: slashPieces rest
  | c :: rest =>
    match slashPieces rest with
    | [] => [[c]]
    | piece :: more => (c :: piece) :: more

def rootOf : List Char → Root
  | '/' :: '/' :: '/' :: _ => .slash
  | '/' :: '/' :: _ => .doubleSlash
  | '/' :: _ => .slash
  | _ => .relative

/-- Reads a path; dots that climb are kept as segments. -/
def parse (s : String) : Path :=
  ⟨rootOf s.toList,
    ((slashPieces s.toList).filter fun p => p ≠ [] && p ≠ ['.']).map String.ofList⟩

def Root.text : Root → String
  | .relative => ""
  | .slash => "/"
  | .doubleSlash => "//"

/-- The text of a path; the empty relative path is a dot. -/
def render (p : Path) : String :=
  if p.root = .relative && p.segments.isEmpty then "."
  else p.root.text ++ "/".intercalate p.segments

def isAbsolute (p : Path) : Bool := p.root ≠ .relative

/-- The path `q` as seen from `p`. -/
def join (p q : Path) : Path :=
  if q.isAbsolute then q else ⟨p.root, p.segments ++ q.segments⟩

/-- The last segment, empty when there is none. -/
def name (p : Path) : String := p.segments.getLastD ""

def parent (p : Path) : Path := ⟨p.root, p.segments.dropLast⟩

/-- The part of a name from its last dot on, when neither end of the name is that dot. -/
def suffixOf (name : List Char) : List Char :=
  let tail := name.reverse.takeWhile (· ≠ '.')
  if tail.length + 1 < name.length && tail ≠ [] then '.' :: tail.reverse else []

def suffix (p : Path) : String := String.ofList (suffixOf p.name.toList)

/-- Climbing segments undone where something stands before them; at an absolute root they go. -/
def climb (absolute : Bool) : List String → List String → List String
  | done, [] => done.reverse
  | done, s :: rest =>
    if s == ".." then
      match done with
      | [] => if absolute then climb absolute [] rest else climb absolute [s] rest
      | d :: more =>
        if d == ".." then climb absolute (s :: done) rest else climb absolute more rest
    else climb absolute (s :: done) rest

/-- The path without climbing segments, as far as the text alone can tell. -/
def normal (p : Path) : Path := ⟨p.root, climb p.isAbsolute [] p.segments⟩

/-- The absolute normal form of a path text, read from the directory `here`. -/
def absolute (here s : String) : String := ((parse here).join (parse s)).normal.render

/-- The segments of `p` below `base`, if `p` lies in it. -/
def below? (base p : Path) : Option (List String) :=
  if base.root = p.root && base.segments.isPrefixOf p.segments then
    some (p.segments.drop base.segments.length)
  else none

end Path

end EnvCensus
