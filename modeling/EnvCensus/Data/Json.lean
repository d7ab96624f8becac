import EnvCensus.Data.Value
import EnvCensus.Text.Code

/-! Structured text in the JSON notation.  Objects keep the order of their fields; when a field is
given twice the later value takes the place of the earlier one.  An integer of more digits than
are ever written out is not read.  The printer indents by two columns, puts every item on its own
line and writes characters outside ASCII as they are. -/
namespace EnvCensus

inductive Json where
  | null
  | bool (b : Bool)
  | int (n : Int)
  | float (x : Binary64)
  | text (s : String)
  | list (items : List Json)
  | object (fields : List (String × Json))
  deriving Repr, Inhabited

namespace Json

def hexPadded (n : Nat) : List Char := '\\' :: 'u' :: Text.hexDigits 4 n

/-- One character of a quoted text. -/
def escaped (c : Char) : List Char :=
  if c == '"' then ['\\', '"']
  else if c == '\\' then ['\\', '\\']
  else if c == '\n' then ['\\', 'n']
  else if c == '\r' then ['\\', 'r']
  else if c == '\t' then ['\\', 't']
  else if c == '\x08' then ['\\', 'b']
  else if c == '\x0c' then ['\\', 'f']
  else if c.toNat < 32 then hexPadded c.toNat
  else [c]

def quoted (s : String) : String := String.ofList ('"' :: s.toList.flatMap escaped ++ ['"'])

def newline (depth : Nat) : String := "\n" ++ String.ofList (List.replicate (2 * depth) ' ')

mutual

/-- The text of a value inside `depth` others. -/
def renderAt (depth : Nat) : Json → String
  | null => "null"
  | bool b => if b then "true" else "false"
  | int n => toString n
  | float x => String.ofList x.text
  | text s => quoted s
  | list [] => "[]"
  | list (v :: vs) =>
    "[" ++ newline (depth + 1) ++
      (("," ++ newline (depth + 1)).intercalate (renderItems (depth + 1) (v :: vs))) ++
      newline depth ++ "]"
  | object [] => Value.braced ""
  | object (f :: fs) =>
    Value.braced (newline (depth + 1) ++
      (("," ++ newline (depth + 1)).intercalate (renderFields (depth + 1) (f :: fs))) ++
      newline depth)

def renderItems (depth : Nat) : List Json → List String
  | [] => []
  | v :: vs => renderAt depth v :: renderItems depth vs

def renderFields (depth : Nat) : List (String × Json) → List String
  | [] => []
  | (k, v) :: fs => (quoted k ++ ": " ++ renderAt depth v) :: renderFields depth fs

end

/-- The text of a value, over several lines. -/
def render (v : Json) : String := renderAt 0 v

/-- The fields with a new value under a key: in place of the old one, or at the end. -/
def insert (fields : List (String × Json)) (key : String) (value : Json) :
    List (String × Json) :=
  match fields with
  | [] => [(key, value)]
  | (k, v) :: rest =>
    if k == key then (k, value) :: rest else (k, v) :: insert rest key value

/-- A field of an object, if the value is one and has it. -/
def field? (v : Json) (key : String) : Option Json :=
  match v with
  | object fields => fields.lookup key
  | _ => none

/-- Fields by name, where a later one replaces an earlier one of its name. -/
def ofFields (fields : List (String × Json)) : Json :=
  object (fields.foldl (fun fs (k, v) => insert fs k v) [])

abbrev Reader := StateT (List Char) Option

namespace Reader

def isSpace (c : Char) : Bool := c == ' ' || c == '\t' || c == '\n' || c == '\r'

def skipSpace : Reader Unit := fun cs => some ((), cs.dropWhile isSpace)

/-- The given characters at the front of the text. -/
def literal (s : String) : Reader Unit := fun cs =>
  if s.toList.isPrefixOf cs then some ((), cs.drop s.length) else none

/-- The code of four hexadecimal digits. -/
def unit? (cs : List Char) : Option (Nat × List Char) :=
  let ds := cs.take 4
  if ds.length == 4 && ds.all Text.isHexDigit then some (Text.hexNumber ds, cs.drop 4) else none

/-- The low half of a character at the front of the text, after its backslash. -/
def lowHalf? : List Char → Option (Nat × List Char)
  | '\\' :: 'u' :: cs => (unit? cs).filter fun r => Text.isLowHalf r.1
  | _ => none

/-- Letters that stand for a character after a backslash. -/
def letters : List (Char × Char) :=
  [('"', '"'), ('\\', '\\'), ('/', '/'), ('b', '\x08'), ('f', '\x0c'), ('n', '\n'), ('r', '\r'),
   ('t', '\t')]

/-- The character of an escape by code; two codes may stand for one character together. -/
def coded? (cs : List Char) : Option (Char × List Char) := do
  let (n, rest) ← unit? cs
  match (if Text.isHighHalf n then lowHalf? rest else none) with
  | some (low, after) => some (Text.joinHalves n low, after)
  | none => some (Text.charOfUnit n, rest)

/-- The characters of a text up to its closing quote, read in at most `fuel` steps; `done` holds
those read so far, latest first. -/
def textFrom : Nat → List Char → List Char → Option (String × List Char)
  | 0, _, _ => none
  | fuel + 1, done, cs =>
    match cs with
    | [] => none
    | '"' :: rest => some (String.ofList done.reverse, rest)
    | '\\' :: 'u' :: rest =>
      match coded? rest with
      | some (c, after) => textFrom fuel (c :: done) after
      | none => none
    | '\\' :: c :: rest =>
      match letters.lookup c with
      | some d => textFrom fuel (d :: done) rest
      | none => none
    | c :: rest => if c.toNat < 32 then none else textFrom fuel (c :: done) rest

def quotedText (fuel : Nat) : Reader String := fun cs =>
  match cs with
  | '"' :: rest => textFrom fuel [] rest
  | _ => none

/-- Digits with their count. -/
def digits : Reader (List Char) := fun cs =>
  let ds := cs.takeWhile Char.isDigit
  if ds.isEmpty then none else some (ds, cs.drop ds.length)

def natOf (ds : List Char) : Nat := ds.foldl (fun n c => 10 * n + (c.toNat - 48)) 0

def number : Reader Json := do
  let negative ← (do literal "-"; return true) <|> pure false
  (do literal "Infinity"; return float (.infinite negative)) <|> (do
    let whole ← (do literal "0"; return ['0']) <|> digits
    let fraction ← (do literal "."; digits) <|> pure []
    let exponent ← (do
        literal "e" <|> literal "E"
        let minus ← (do literal "-"; return true) <|> (do literal "+"; return false) <|> pure false
        let n := natOf (← digits)
        return some (if minus then -(n : Int) else (n : Int))) <|> pure none
    if fraction.isEmpty && exponent.isNone then
      guard (whole.length ≤ Value.mostDigits)
      let n := natOf whole
      return int (if negative then -(n : Int) else n)
    else
      return float (.ofDecimal negative (natOf (whole ++ fraction))
        (exponent.getD 0 - fraction.length)))

/-- Zero or more items between commas, up to the closing character; at most `fuel`. -/
def itemsFrom {α : Type} (item : Reader α) (close : String) : Nat → List α → Reader (List α)
  | 0, _ => failure
  | fuel + 1, done => do
    let x ← item
    skipSpace
    (do literal close; return (x :: done).reverse) <|> (do
      literal ","
      skipSpace
      itemsFrom item close fuel (x :: done))

def items {α : Type} (item : Reader α) (close : String) (fuel : Nat) : Reader (List α) := do
  skipSpace
  (do literal close; return []) <|> itemsFrom item close fuel []

/-- A value no more than `fuel` levels deep. -/
def value : Nat → Reader Json
  | 0 => failure
  | fuel + 1 => do
    let field : Reader (String × Json) := do
      let k ← quotedText fuel
      skipSpace
      literal ":"
      skipSpace
      return (k, ← value fuel)
    (do literal "null"; return null) <|>
    (do literal "true"; return bool true) <|>
    (do literal "false"; return bool false) <|>
    (do literal "NaN"; return float .nan) <|>
    (do return text (← quotedText fuel)) <|>
    (do literal "["; return list (← items (value fuel) "]" fuel)) <|>
    (do literal "\x7b"; return ofFields (← items field "\x7d" fuel)) <|>
    number

end Reader

/-- Reads a whole text as one value. -/
def parse? (s : String) : Option Json :=
  let cs := s.toList
  let reader : Reader Json := do
    Reader.skipSpace
    let v ← Reader.value (cs.length + 2)
    Reader.skipSpace
    return v
  match reader cs with
  | some (v, []) => some v
  | _ => none

mutual

/-- The value of a document in this notation. -/
def toValue : Json → Value
  | null => .null
  | bool b => .bool b
  | int n => .int n
  | float x => .float x
  | text s => .text s
  | list items => .list (toValues items)
  | object fields => .map (toEntries fields)

def toValues : List Json → List Value
  | [] => []
  | v :: vs => toValue v :: toValues vs

def toEntries : List (String × Json) → List (Value × Value)
  | [] => []
  | (k, v) :: fs => (.text k, toValue v) :: toEntries fs

end

end Json

end EnvCensus
