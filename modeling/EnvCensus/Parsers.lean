import EnvCensus.Script.Syntax
import EnvCensus.Text.Lines
import EnvCensus.Text.Utf8
import EnvCensus.Yaml.Document

/-! Parsers of scripts and of documents.  What is found in a file and what is loaded from it follow
from what the parsers make of its text; which texts they refuse, and the order in which they go
through a set, is their own.  The document in a file is read block by block, so that a fault is
found before bytes behind it that are no text. -/
namespace EnvCensus

/-- Why there is no document in a file: its bytes are no text, or the text is faulty. -/
inductive Yaml.FileFault where
  | undecodable
  | faulty (fault : Yaml.Fault)
  deriving DecidableEq, Repr

class Parsers where
  /-- The tree of a script, if it can be parsed. -/
  tree : Script.Dialect → List Char → Option Script.Tree
  /-- The document in a text. -/
  document : String → Except Yaml.Fault Value
  /-- The document in the bytes of a file. -/
  file : List UInt8 → Except Yaml.FileFault Value

namespace Yaml

/-- A file is decoded in blocks of at least this many bytes. -/
def blockBytes : Nat := 8192

/-- The text of a file is parsed in blocks of this many characters. -/
def blockChars : Nat := 4096

/-- Bytes that complete a character, whatever bytes it begins with. -/
def completions : List (List UInt8) :=
  [[], [0x80], [0xA0], [0x80, 0x80], [0xA0, 0x80], [0x80, 0x80, 0x80], [0xA0, 0x80, 0x80]]

/-- Whether bytes begin a text; the last character in them may be incomplete. -/
def isBeginning (bs : List UInt8) : Bool :=
  completions.any fun more => (Text.decode? (bs ++ more)).isSome

/-- The characters in the beginning of a text, without an incomplete one. A return at its end waits
for what follows it. -/
def beginning (bs : List UInt8) : List Char :=
  let cs := ([0, 1, 2, 3].findSome? fun n => Text.decode? (bs.take (bs.length - n))).getD []
  Text.unifyBreaks (if cs.getLast? == some '\r' then cs.dropLast else cs)

/-- How far a file is read: the bytes that are decoded, the characters in them, and how many bytes
and characters the last block has. -/
structure Reached where
  bytes : Nat := 0
  chars : Nat := 0
  lastBytes : Nat := 0
  lastChars : Nat := 0

/-- The size of the next block where characters are missing: it may have to be larger when the
characters of the last block are long. -/
def Reached.nextBytes (r : Reached) (missing : Nat) : Nat :=
  max blockBytes (missing * r.lastBytes / r.lastChars)

/-- What is parsed of a file that is no text, where the parser waits for `wanted` characters. The
first two blocks of characters are read before any of them is parsed. -/
def partFrom (bs : List UInt8) : Nat → Reached → Nat → List Char
  | 0, _, _ => []
  | fuel + 1, r, wanted =>
    if wanted ≤ r.chars then partFrom bs fuel r (wanted + blockChars)
    else
      let bytes := r.bytes + r.nextBytes (wanted - r.chars)
      if r.bytes < bs.length && isBeginning (bs.take bytes) then
        let chars := (beginning (bs.take bytes)).length
        partFrom bs fuel ⟨bytes, chars, min bytes bs.length - r.bytes, chars - r.chars⟩ wanted
      else if wanted ≤ 2 * blockChars then []
      else (beginning (bs.take r.bytes)).take (wanted - blockChars)

/-- What is parsed of a file that is no text. A step decodes a block of bytes or gives a block of
characters to the parser. -/
def parsedPart (bs : List UInt8) : List Char := partFrom bs (bs.length + 1) {} blockChars

/-- A line that no token begins with. -/
def noToken : List Char := ['\n', '@', '\n']

/-- Whether a fault in the part of a text that is parsed is one of the whole: values are made of all
of it, and the last line of the part may go on. -/
def Fault.isSettled (part : List Char) : Fault → Bool
  | .malformed .characters _ => true
  | .malformed .values _ => false
  | .malformed _ (some m) => m.line < part.count '\n'
  | _ => false

/-- Whether the part that is parsed has a fault that shows in it: what follows the part, if it is
looked at, is another fault. -/
def showsFault (part : List Char) (f : Fault) : Bool :=
  f.isSettled part && match load (String.ofList (part ++ noToken)) with
    | .ok _ => false
    | .error g => g == f

/-- The document in the bytes of a file. -/
def loadFile (bs : List UInt8) : Except FileFault Value :=
  match Text.decode? bs with
  | some cs => (load (String.ofList (Text.unifyBreaks cs))).mapError .faulty
  | none =>
    match load (String.ofList (parsedPart bs)) with
    | .ok _ => .error .undecodable
    | .error f => .error (if showsFault (parsedPart bs) f then .faulty f else .undecodable)

end Yaml

instance : Parsers := ⟨Script.parse?, Yaml.load, Yaml.loadFile⟩

end EnvCensus
