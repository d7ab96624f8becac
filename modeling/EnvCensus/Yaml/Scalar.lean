import EnvCensus.Text.Code
import EnvCensus.Yaml.Cursor

/-! Plain scalars: text without quotes.  It ends before a colon at the end of a word, before a
comment and, inside brackets, before the characters that belong to them.  Lines of one scalar are
joined by a space, and an empty line stands for a line break. -/
namespace EnvCensus.Yaml

/-- A scalar's text, where it ends and where reading goes on. -/
structure Scalar where
  text : List Char
  stop : Mark
  after : Cursor

namespace Plain

/-- Characters of a collection in brackets. -/
def isFlowMark (c : Char) : Bool :=
  c == ',' || c == '[' || c == ']' || c == '\x7b' || c == '\x7d'

/-- Whether a colon before `next` ends a plain scalar. -/
def colonEnds (flow : Bool) (next : Option Char) : Bool :=
  endsWord next || (flow && next.any isFlowMark)

/-- The length of the part of a plain scalar up to a blank or its end. -/
def runLength (flow : Bool) (n : Nat) : List Char → Nat
  | [] => n
  | c :: rest =>
    if endsWord (some c) || (c == ':' && colonEnds flow rest.head?) ||
        (flow && (c == '?' || isFlowMark c)) then n
    else runLength flow (n + 1) rest

/-- The empty lines at the front of the text, in at most `fuel` steps, and whether a mark between
documents follows; `done` holds the line breaks so far, latest first. -/
def emptyLines : Nat → List Char → Cursor → Bool × List Char × Cursor
  | 0, done, c => (false, done.reverse, c)
  | fuel + 1, done, c =>
    if c.head == some ' ' then emptyLines fuel done c.next
    else
      match c.lineBreak? with
      | none => (false, done.reverse, c)
      | some (b, after) =>
        if after.atSeparator then (true, [], after) else emptyLines fuel (b :: done) after

/-- The text that a line break and the empty lines after it stand for. -/
def foldedBreak (first : Char) (breaks : List Char) : List Char :=
  if first ≠ '\n' then first :: breaks
  else if breaks.isEmpty then [' ']
  else breaks

/-- What separates two parts of a plain scalar, nothing if the scalar ends, whether it includes a
line break, and the place after it. -/
def gap (c : Cursor) : List Char × Bool × Cursor :=
  let blanks := c.rest.takeWhile (· == ' ')
  let c := c.skip blanks.length
  match c.lineBreak? with
  | none => (blanks, false, c)
  | some (first, after) =>
    if after.atSeparator then ([], true, after)
    else
      match emptyLines after.rest.length [] after with
      | (true, _, c) => ([], true, c)
      | (false, breaks, c) => (foldedBreak first breaks, true, c)

/-- Reads on behind the part `text`, latest character first, in at most `fuel` steps. -/
def readFrom (flow : Bool) (indent : Nat) :
    Nat → List Char → Mark → Bool → List Char → Cursor → Scalar × Bool
  | 0, text, stop, broken, _, c => (⟨text.reverse, stop, c⟩, broken)
  | fuel + 1, text, stop, broken, between, c =>
    let n := runLength flow 0 c.rest
    if c.head == some '#' || n == 0 then (⟨text.reverse, stop, c⟩, broken)
    else
      let text := (c.rest.take n).reverse ++ (between.reverse ++ text)
      let c := c.skip n
      let (between, broken, after) := gap c
      if between.isEmpty || after.head == some '#' || (!flow && after.column < indent) then
        (⟨text.reverse, c.mark, after⟩, broken)
      else readFrom flow indent fuel text c.mark broken between after

/-- Reads a plain scalar inside brackets or in a block whose contents are indented by `indent`;
also tells whether a line break follows it. -/
def read (flow : Bool) (indent : Nat) (c : Cursor) : Scalar × Bool :=
  readFrom flow indent (c.rest.length + 1) [] c.mark false [] c

end Plain

end EnvCensus.Yaml

/-! Scalars in quotes.  A single quote inside single quotes is written twice; between double
quotes a backslash introduces an escape.  A line break inside a scalar is folded as in plain
text, unless a backslash stands before it. -/
namespace EnvCensus.Yaml.Quoted

/-- Characters that stand for others after a backslash. -/
def namedEscapes : List (Char × Char) :=
  [('0', '\x00'), ('a', '\x07'), ('b', '\x08'), ('t', '\t'), ('\t', '\t'), ('n', '\n'),
   ('v', '\x0b'), ('f', '\x0c'), ('r', '\r'), ('e', '\x1b'), (' ', ' '), ('"', '"'),
   ('\\', '\\'), ('/', '/'), ('N', '\u0085'), ('_', '\u00a0'), ('L', '\u2028'), ('P', '\u2029')]

/-- The count of hexadecimal digits after a letter that introduces a code. -/
def codeDigits : Char → Option Nat
  | 'x' => some 2
  | 'u' => some 4
  | 'U' => some 8
  | _ => none

/-- The code of `n` hexadecimal digits. -/
def hexCode? (n : Nat) (cs : List Char) : Option Nat :=
  let ds := cs.take n
  if ds.length == n && ds.all Text.isHexDigit then some (Text.hexNumber ds) else none

def charOfCode (n : Nat) : Except Fault Char :=
  if n > 0x10FFFF then .error (.scalar (.noCharacter n))
  else .ok (Text.charOfUnit n)

/-- The character whose code of `n` digits stands here, and the place after it. -/
def codedChar (n : Nat) (c : Cursor) : Except Fault (Char × Cursor) :=
  match hexCode? n c.rest with
  | none => .error c.fault
  | some code => (charOfCode code).map fun ch => (ch, c.skip n)

/-- The line breaks of empty lines inside quotes, in at most `fuel` steps; a mark between
documents may not stand at the start of a line. -/
def emptyLines : Nat → List Char → Cursor → Except Fault (List Char × Cursor)
  | 0, done, c => .ok (done.reverse, c)
  | fuel + 1, done, c =>
    if c.atSeparator then .error c.fault
    else
      let c := c.skipWhile fun ch => ch == ' ' || ch == '\t'
      match c.lineBreak? with
      | some (b, after) => emptyLines fuel (b :: done) after
      | none => .ok (done.reverse, c)

/-- The text of blanks and line breaks that stand here. -/
def gap (c : Cursor) : Except Fault (List Char × Cursor) := do
  let blanks := c.rest.takeWhile fun ch => ch == ' ' || ch == '\t'
  let c := c.skip blanks.length
  match c.rest, c.lineBreak? with
  | [], _ => .error c.fault
  | _, none => .ok (blanks, c)
  | _, some (first, after) =>
    let (breaks, c) ← emptyLines (after.rest.length + 1) [] after
    return (Plain.foldedBreak first breaks, c)

/-- The text of the escape whose backslash stands just before, and the place after it. -/
def escape (c : Cursor) : Except Fault (List Char × Cursor) :=
  match c.head with
  | none => .error c.fault
  | some ch =>
    match namedEscapes.lookup ch, codeDigits ch with
    | some value, _ => .ok ([value], c.next)
    | none, some n => (codedChar n c.next).map fun (value, after) => ([value], after)
    | none, none =>
      match c.lineBreak? with
      | some (_, after) => emptyLines (after.rest.length + 1) [] after
      | none => .error c.fault

/-- Reads on behind the characters `text`, latest first, up to the closing quote, in at most
`fuel` steps. -/
def readFrom (double : Bool) : Nat → List Char → Cursor → Except Fault Scalar
  | 0, _, c => .error c.fault
  | fuel + 1, text, c =>
    match c.rest with
    | [] => .error c.fault
    | '\'' :: '\'' :: _ =>
      if double then readFrom double fuel ('\'' :: text) c.next
      else readFrom double fuel ('\'' :: text) (c.skip 2)
    | ch :: _ =>
      if ch == (if double then '"' else '\'') then .ok ⟨text.reverse, c.next.mark, c.next⟩
      else if double && ch == '\\' then
        match escape c.next with
        | .error e => .error e
        | .ok (value, after) => readFrom double fuel (value.reverse ++ text) after
      else if endsWord (some ch) then
        match gap c with
        | .error e => .error e
        | .ok (value, after) => readFrom double fuel (value.reverse ++ text) after
      else readFrom double fuel (ch :: text) c.next

/-- Reads the scalar whose opening quote stands here. -/
def read (double : Bool) (c : Cursor) : Except Fault Scalar :=
  readFrom double (c.rest.length + 1) [] c.next

end EnvCensus.Yaml.Quoted

/-! Block scalars: the indented lines below a header.  A literal scalar keeps its line breaks; a
folded one joins lines that do not start with a blank.  The header tells what becomes of the line
breaks at the end and, if the first line does not show it, by how much the text is indented. -/
namespace EnvCensus.Yaml.Block

/-- What becomes of the line breaks at the end: none is kept, one or all. -/
inductive Chomping where
  | strip
  | clip
  | keep
  deriving DecidableEq, Repr

structure Header where
  chomping : Chomping := .clip
  indent : Option Nat := none
  deriving DecidableEq, Repr

def chomping? : Option Char → Option Chomping
  | some '-' => some .strip
  | some '+' => some .keep
  | _ => none

/-- The digit that stands here; zero is no indentation. -/
def digit? (c : Cursor) : Except Fault (Option Nat) :=
  match c.head with
  | some ch =>
    if ch == '0' then .error c.fault
    else if ch.isDigit then .ok (some (ch.toNat - '0'.toNat))
    else .ok none
  | none => .ok none

/-- The two indicators of a header, in either order. -/
def indicators (c : Cursor) : Except Fault (Header × Cursor) := do
  match chomping? c.head with
  | some k =>
    let c := c.next
    match ← digit? c with
    | some n => return (⟨k, some n⟩, c.next)
    | none => return (⟨k, none⟩, c)
  | none =>
    match ← digit? c with
    | some n =>
      let c := c.next
      match chomping? c.head with
      | some k => return (⟨k, some n⟩, c.next)
      | none => return (⟨.clip, some n⟩, c)
    | none => return ({}, c)

/-- The header after its first character, up to the line break behind it. -/
def header (c : Cursor) : Except Fault (Header × Cursor) := do
  let (h, c) ← indicators c
  if !endsPart c.head then throw c.fault
  let c := c.skipSpaces.skipComment
  if !endsLine c.head then throw c.fault
  return (h, c.skipBreak)

/-- The blank lines before the first line of text, in at most `fuel` steps: their line breaks, the
widest indentation, where they end and the place of the text. -/
def leadingLines : Nat → List Char → Nat → Mark → Cursor → List Char × Nat × Mark × Cursor
  | 0, breaks, widest, stop, c => (breaks.reverse, widest, stop, c)
  | fuel + 1, breaks, widest, stop, c =>
    if c.head == some ' ' then leadingLines fuel breaks (max widest c.next.column) stop c.next
    else
      match c.lineBreak? with
      | some (b, after) => leadingLines fuel (b :: breaks) widest after.mark after
      | none => (breaks.reverse, widest, stop, c)

/-- The place after at most the spaces that indent a line by `indent`. -/
def skipIndent (indent : Nat) (c : Cursor) : Cursor :=
  c.skip (min (indent - c.column) (c.rest.takeWhile (· == ' ')).length)

/-- The line breaks of empty lines, in at most `fuel` steps, where they end and the place of the
text after them. -/
def emptyLines (indent : Nat) : Nat → List Char → Mark → Cursor → List Char × Mark × Cursor
  | 0, breaks, stop, c => (breaks.reverse, stop, c)
  | fuel + 1, breaks, stop, c =>
    let c := skipIndent indent c
    match c.lineBreak? with
    | some (b, after) => emptyLines indent fuel (b :: breaks) after.mark after
    | none => (breaks.reverse, stop, c)

def isBlankHead (c : Cursor) : Bool := c.head == some ' ' || c.head == some '\t'

/-- What the line break `last` and the empty lines `breaks` behind it stand for before another
line of text. -/
def joint (folded : Bool) (last : List Char) (breaks : List Char) (blankBefore blankAfter : Bool) :
    List Char :=
  if folded && last == ['\n'] && !blankBefore && !blankAfter then
    if breaks.isEmpty then [' '] else breaks
  else last ++ breaks

def chomped (k : Chomping) (last breaks : List Char) : List Char :=
  match k with
  | .strip => []
  | .clip => last
  | .keep => last ++ breaks

/-- Reads lines indented by `indent` in at most `fuel` steps; `text` holds the characters so far,
latest first, and the place is that of a line of text. -/
def linesFrom (folded : Bool) (k : Chomping) (indent : Nat) :
    Nat → List Char → Cursor → Scalar
  | 0, text, c => ⟨text.reverse, c.mark, c⟩
  | fuel + 1, text, c =>
    let blankBefore := isBlankHead c
    let line := c.rest.takeWhile fun ch => !isBreak ch
    let text := line.reverse ++ text
    let c := c.skip line.length
    let last := (c.lineBreak?.map (·.1)).toList
    let c := c.skipBreak
    let (breaks, stop, c) := emptyLines indent (c.rest.length + 1) [] c.mark c
    if c.column == indent && c.head.isSome then
      linesFrom folded k indent fuel
        ((joint folded last breaks blankBefore (isBlankHead c)).reverse ++ text) c
    else ⟨text.reverse ++ chomped k last breaks, stop, c⟩

/-- Reads the scalar whose header stands here, in a block indented by `parent` columns. -/
def read (folded : Bool) (parent : Nat) (c : Cursor) : Except Fault Scalar := do
  let (h, c) ← header c.next
  let least := max parent 1
  let (indent, breaks, stop, c) :=
    match h.indent with
    | some n =>
      let indent := least + n - 1
      let (breaks, stop, c) := emptyLines indent (c.rest.length + 1) [] c.mark c
      (indent, breaks, stop, c)
    | none =>
      let (breaks, widest, stop, c) := leadingLines (c.rest.length + 1) [] 0 c.mark c
      (max least widest, breaks, stop, c)
  if c.column == indent && c.head.isSome then
    return linesFrom folded h.chomping indent (c.rest.length + 1) breaks.reverse c
  return ⟨chomped h.chomping [] breaks, stop, c⟩

end EnvCensus.Yaml.Block
