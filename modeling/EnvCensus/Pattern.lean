import EnvCensus.Path
import EnvCensus.Text.Blank

/-! Patterns of paths.  A pattern is a path whose segments may hold wild cards; two stars stand for
any number of segments.  A pattern of one segment applies at any depth, one with an inner or a
leading slash from the top only, and one with a slash at its end to what lies below a directory.
A pattern that applies to a directory applies to all that lies below it.  The last pattern of a
list that applies to a path decides; it turns the path down when an exclamation mark stands before
it.

In a selection of files, a pattern without a slash is about the name of a file and one with a slash
about its path; a file is selected when its name or its path is.  Selections only ever select files:
a name pattern does not reach below a directory of that name. -/
namespace EnvCensus

namespace Pattern

/-- What makes a text no pattern: nothing is left to match, or a range ends before it starts. -/
inductive Fault where
  | invalid (text : String)
  | badRange (text : String)
  deriving DecidableEq, Repr

/-- A set of characters, given by ranges with both ends. -/
structure CharSet where
  negated : Bool
  ranges : List (Char × Char)
  deriving DecidableEq, Repr

def CharSet.contains (s : CharSet) (c : Char) : Bool :=
  (s.ranges.any fun (lo, hi) => decide (lo ≤ c) && decide (c ≤ hi)) != s.negated

/-- A part of a pattern. -/
inductive Piece where
  /-- One given character. -/
  | char (c : Char)
  /-- One character within a segment. -/
  | one
  /-- Any number of characters within a segment. -/
  | run
  /-- One character of a set, which may be a slash. -/
  | set (s : CharSet)
  /-- Nothing, or whole segments with the slash after them, without a line feed. -/
  | above
  /-- Nothing, or a slash and what follows it, up to a line feed. -/
  | between
  deriving DecidableEq, Repr

/-- What must be left of the path after all pieces. -/
inductive Ending where
  /-- The end of a segment; one line feed may end the path. -/
  | segment
  /-- The slash of a directory. -/
  | below
  /-- Any path at all. -/
  | anything
  /-- Any path below a directory. -/
  | nested
  deriving DecidableEq, Repr

/-- The tails of a text, the text itself included, down to the one with the first line feed. -/
def tails : List Char → List (List Char)
  | [] => [[]]
  | c :: cs => (c :: cs) :: (if c == '\n' then [] else tails cs)

/-- The tails that follow a slash, as long as no line feed stands before it. -/
def tailsAfterSlash : List Char → List (List Char)
  | [] => []
  | c :: cs =>
    if c == '\n' then []
    else if c == '/' then cs :: tailsAfterSlash cs
    else tailsAfterSlash cs

/-- The tails up to and with the first slash. -/
def tailsWithinSegment : List Char → List (List Char)
  | [] => [[]]
  | c :: cs => (c :: cs) :: (if c == '/' then [] else tailsWithinSegment cs)

/-- What may be left of a text after a piece of it. -/
def Piece.leaves (p : Piece) (cs : List Char) : List (List Char) :=
  match p with
  | char d =>
    match cs with
    | c :: rest => if c == d then [rest] else []
    | [] => []
  | one =>
    match cs with
    | c :: rest => if c == '/' then [] else [rest]
    | [] => []
  | run => tailsWithinSegment cs
  | set s =>
    match cs with
    | c :: rest => if s.contains c then [rest] else []
    | [] => []
  | above =>
    match cs with
    | c :: rest => cs :: (if c == '\n' then [] else tailsAfterSlash rest)
    | [] => [cs]
  | between =>
    match cs with
    | '/' :: c :: rest => cs :: (if c == '\n' then [] else tails rest)
    | _ => [cs]

def Ending.accepts (e : Ending) (cs : List Char) : Bool :=
  match e with
  | segment => cs.isEmpty || cs.head? == some '/' || cs == ['\n']
  | below => cs.head? == some '/'
  | anything => !cs.isEmpty
  | nested => cs.contains '/'

/-- Whether the pieces, one after the other, and the ending account for the text. -/
def accepts (ending : Ending) : List Piece → List Char → Bool
  | [], cs => ending.accepts cs
  | p :: ps, cs => (p.leaves cs).any (accepts ending ps)

end Pattern

structure Pattern where
  negated : Bool
  pieces : List Pattern.Piece
  ending : Pattern.Ending
  deriving DecidableEq, Repr

namespace Pattern

/-- The ranges that the inside of a set lists. -/
def rangesOf : List Char → List (Char × Char)
  | lo :: '-' :: hi :: rest => (lo, hi) :: rangesOf rest
  | c :: rest => (c, c) :: rangesOf rest
  | [] => []

/-- The inside of a set and what follows its closing bracket.  A bracket that comes first is a
member of the set. -/
def setBody? (cs : List Char) : Option (List Char × List Char) :=
  let (first, rest) := match cs with
    | ']' :: rest => ([']'], rest)
    | _ => ([], cs)
  match rest.dropWhile (· ≠ ']') with
  | _ :: after => some (first ++ rest.takeWhile (· ≠ ']'), after)
  | [] => none

theorem setBody?_length {cs body after : List Char} (h : setBody? cs = some (body, after)) :
    after.length < cs.length := by
  have key (xs : List Char) (d : Char) (ys : List Char)
      (hd : xs.dropWhile (· ≠ ']') = d :: ys) : ys.length < xs.length := by
    have := (List.dropWhile_sublist (p := (· ≠ ']')) (l := xs)).length_le
    rw [hd] at this
    simp only [List.length_cons] at this
    omega
  unfold setBody? at h
  split at h
  rename_i first rest hm
  split at h
  · rename_i d ys hd
    have hlt := key _ _ _ hd
    simp only [Option.some.injEq, Prod.mk.injEq] at h
    obtain ⟨_, rfl⟩ := h
    have hle : rest.length ≤ cs.length := by
      split at hm <;> simp only [Prod.mk.injEq] at hm <;> obtain ⟨_, rfl⟩ := hm <;> simp
    omega
  · simp at h

/-- Why a segment has no pieces: a set is left open, or nothing follows the last backslash. -/
inductive Flaw where
  | openSet
  | openEscape
  deriving DecidableEq, Repr

/-- The sign that negates a set, and the rest. -/
def setSign : List Char → Bool × List Char
  | '!' :: cs => (true, cs)
  | '^' :: cs => (true, cs)
  | cs => (false, cs)

theorem setSign_length (cs : List Char) : (setSign cs).2.length ≤ cs.length := by
  unfold setSign
  split <;> simp

/-- The pieces of one segment. -/
def segmentPieces : List Char → Except Flaw (List Piece)
  | [] => .ok []
  | '\\' :: [] => .error .openEscape
  | '\\' :: c :: rest => (segmentPieces rest).map (.char c :: ·)
  | '*' :: rest => (segmentPieces rest).map (.run :: ·)
  | '?' :: rest => (segmentPieces rest).map (.one :: ·)
  | '[' :: rest =>
    match h : setBody? (setSign rest).2 with
    | none => .error .openSet
    | some (body, after) =>
      have : after.length < rest.length + 1 := by
        have := setBody?_length h
        have := setSign_length rest
        omega
      (segmentPieces after).map (.set ⟨(setSign rest).1, rangesOf body⟩ :: ·)
  | c :: rest => (segmentPieces rest).map (.char c :: ·)
termination_by cs => cs.length

/-- The pieces of a segment that is not two stars; a single star stands for at least one
character. -/
def wholeSegment (segment : List Char) : Except Flaw (List Piece) :=
  if segment == ['*'] then .ok [.one, .run] else segmentPieces segment

/-- The pieces of segments, each after a slash, and the ending. -/
def piecesBelow : List (List Char) → Except Flaw (List Piece × Ending)
  | [] => .ok ([], .segment)
  | [['*', '*']] => .ok ([], .below)
  | ['*', '*'] :: rest => do
    let (more, ending) ← piecesBelow rest
    return (.between :: more, ending)
  | segment :: rest => do
    let ps ← wholeSegment segment
    let (more, ending) ← piecesBelow rest
    return (.char '/' :: ps ++ more, ending)

/-- The pieces of segments and the ending, from the top of the path. -/
def piecesOf : List (List Char) → Except Flaw (List Piece × Ending)
  | ['*', '*'] :: segment :: rest => do
    let ps ← wholeSegment segment
    let (more, ending) ← piecesBelow rest
    return (.above :: ps ++ more, ending)
  | segment :: rest => do
    let ps ← wholeSegment segment
    let (more, ending) ← piecesBelow rest
    return (ps ++ more, ending)
  | [] => .ok ([], .segment)

/-- Whether a piece is a set with a range that ends before it starts. -/
def Piece.isReversed : Piece → Bool
  | set s => s.ranges.any fun (lo, hi) => decide (hi < lo)
  | _ => false

/-- Runs of two-star segments made one. -/
def collapse : List (List Char) → List (List Char)
  | ['*', '*'] :: rest =>
    match collapse rest with
    | ['*', '*'] :: more => ['*', '*'] :: more
    | more => ['*', '*'] :: more
  | s :: rest => s :: collapse rest
  | [] => []

/-- The segments of a pattern in one form: from the top, and with two stars at the end for what
lies below a directory. -/
def segmentsOf (cs : List Char) : List (List Char) :=
  let segments := match Path.slashPieces cs with
    | [] :: rest => rest
    | [s] => [['*', '*'], s]
    | [s, []] => [['*', '*'], s, []]
    | ss => ss
  collapse (if segments.getLast? == some [] then segments.dropLast ++ [['*', '*']] else segments)

/-- The text of a pattern without what follows it, save a blank that is escaped. -/
def withoutTail (cs : List Char) : List Char :=
  if ['\\', ' '].isSuffixOf cs then cs else Text.trimRight cs

/-- Reads the body of a pattern. -/
def bodyOf (text : String) (negated : Bool) (cs : List Char) : Except Fault (Option Pattern) :=
  match segmentsOf cs with
  | [] => .error (.invalid text)
  | [['*', '*']] => .ok (some ⟨negated, [], if cs.getLast? == some '/' then .nested else .anything⟩)
  | segments =>
    match piecesOf segments with
    | .ok (ps, ending) =>
      if ps.any Piece.isReversed then .error (.badRange text) else .ok (some ⟨negated, ps, ending⟩)
    | .error .openSet => .ok none
    | .error .openEscape => .error (.invalid text)

/-- Reads one line of a pattern list; blank lines, comments and a lone slash are no patterns. -/
def parse (text : String) : Except Fault (Option Pattern) :=
  match withoutTail text.toList with
  | [] => .ok none
  | '#' :: _ => .ok none
  | ['/'] => .ok none
  | '!' :: cs => bodyOf text true cs
  | cs => bodyOf text false cs

/-- The patterns of a list of lines. -/
def parseAll (lines : List String) : Except Fault (List Pattern) := do
  return (← lines.mapM parse).filterMap id

/-- The path as patterns see it: without the mark of the place it starts from. -/
def viewed : List Char → List Char
  | '/' :: cs => cs
  | '.' :: '/' :: cs => cs
  | cs => cs

/-- Whether the pattern applies to a path, negated or not. -/
def applies (p : Pattern) (path : String) : Bool := accepts p.ending p.pieces (viewed path.toList)

/-- Whether a list of patterns selects a path: the last pattern that applies decides. -/
def selects (ps : List Pattern) (path : String) : Bool :=
  match ps.reverse.find? fun p => p.applies path with
  | some p => !p.negated
  | none => false

end Pattern

structure Selection where
  names : List Pattern
  paths : List Pattern
  deriving DecidableEq, Repr

namespace Selection

/-- Whether a line is about paths: whether a slash stands after the exclamation marks. -/
def isPathLine (line : String) : Bool := (line.toList.dropWhile (· == '!')).contains '/'

/-- The selection of a list of lines. -/
def ofLines (lines : List String) : Except Pattern.Fault Selection := do
  let names ← Pattern.parseAll (lines.filter fun l => !isPathLine l)
  let paths ← Pattern.parseAll (lines.filter isPathLine)
  return ⟨names, paths⟩

/-- What follows the last slash of a path. -/
def fileName (path : String) : String :=
  String.ofList ((Path.slashPieces path.toList).getLastD [])

def selects (s : Selection) (path : String) : Bool :=
  Pattern.selects s.names (fileName path) || Pattern.selects s.paths path

end Selection

end EnvCensus
