import EnvCensus.Data.Moment
import EnvCensus.Number.Binary64
import EnvCensus.Text.Quoted

/-! Values of documents: scalars, sequences and mappings with keys of any kind.  Two numbers that
are equal are one key, whatever their types.  A collection may hold itself: it is then a knot, with
a loop wherever it stands inside itself, and is looked into as the collection that it is, unrolled
once.  `display` is the text of a value as messages and notes show it, `inspect` the form that it
takes inside another value; a value with an integer that is too long in it has neither.  The items
of a set are in the order in which its reader goes through them. -/
namespace EnvCensus

/-- Which collection a value is: the place in its document where it starts.  A pair of an ordered
mapping starts where its key does. -/
structure Value.Origin where
  line : Nat
  column : Nat
  isPair : Bool := false
  deriving DecidableEq, Repr

inductive Value where
  | null
  | bool (b : Bool)
  | int (n : Int)
  | float (x : Binary64)
  | text (s : String)
  | bytes (bs : List UInt8)
  | date (m : Moment)
  | time (m : Moment)
  | list (items : List Value)
  | tuple (items : List Value)
  | set (items : List Value)
  | map (entries : List (Value × Value))
  | knot (origin : Value.Origin) (v : Value)
  | loop (origin : Value.Origin)
  deriving Repr, Inhabited

namespace Value

/-- The number that a value counts as among keys. -/
def number? : Value → Option Binary64
  | bool b => some (.finite false (if b then 1 else 0) 0)
  | float x => some x
  | _ => none

/-- The integer that a value is equal to, if there is one. -/
def integer? : Value → Option Int
  | bool b => some (if b then 1 else 0)
  | int n => some n
  | float x => x.toInt?
  | _ => none

/-- Whether two scalars are one key. -/
def sameKey (a b : Value) : Bool :=
  match a, b with
  | null, null => true
  | text s, text t => s == t
  | bytes s, bytes t => s == t
  | date m, date n => m == n
  | time m, time n => m.same n
  | float x, float y =>
    match x.toInt?, y.toInt? with
    | some m, some n => m == n
    | _, _ => x != .nan && x == y
  | _, _ =>
    match a.integer?, b.integer? with
    | some m, some n => m == n
    | _, _ => false

/-- Sequences, sets and mappings cannot be keys. -/
def isKey : Value → Bool
  | list _ => false
  | set _ => false
  | map _ => false
  | knot _ _ => false
  | loop _ => false
  | _ => true

mutual

/-- The value with `w` in place of the loops to a collection. -/
def fill (o : Origin) (w : Value) : Value → Value
  | list items => list (fillAll o w items)
  | tuple items => tuple (fillAll o w items)
  | map entries => map (fillEntries o w entries)
  | knot p v => if p = o then knot p v else knot p (fill o w v)
  | loop p => if p = o then w else loop p
  | v => v

def fillAll (o : Origin) (w : Value) : List Value → List Value
  | [] => []
  | v :: vs => fill o w v :: fillAll o w vs

def fillEntries (o : Origin) (w : Value) : List (Value × Value) → List (Value × Value)
  | [] => []
  | (k, v) :: es => (k, fill o w v) :: fillEntries o w es

end

/-- A value as it is looked into: a knot is the collection in it, with the knot in its loops. -/
def unrolled : Value → Value
  | knot o v => fill o (knot o v) v
  | v => v

/-- The value under the first of the entries with the key. -/
def lookup (entries : List (Value × Value)) (key : Value) : Option Value :=
  (entries.find? fun e => sameKey e.1 key).map (·.2)

/-- The entries with a new value under a key: in place of the old one, or at the end. -/
def insert (entries : List (Value × Value)) (key value : Value) : List (Value × Value) :=
  match entries with
  | [] => [(key, value)]
  | (k, v) :: rest =>
    if sameKey k key then (k, value) :: rest else (k, v) :: insert rest key value

/-- The value of a field of a mapping; a missing field and a missing mapping are null. -/
def field (v : Value) (name : String) : Value :=
  match v.unrolled with
  | map entries => (lookup entries (text name)).getD null
  | _ => null

/-- The entries of a mapping; nothing else has any. -/
def entriesOf (v : Value) : List (Value × Value) :=
  match v.unrolled with
  | map entries => entries
  | _ => []

def isMap (v : Value) : Bool :=
  match v.unrolled with
  | map _ => true
  | _ => false

/-- Values that count as missing where one is optional. -/
def isEmpty : Value → Bool
  | null => true
  | bool b => !b
  | int n => n == 0
  | float x => x.toInt? == some 0
  | text s => s == ""
  | bytes bs => bs.isEmpty
  | list items => items.isEmpty
  | tuple items => items.isEmpty
  | set items => items.isEmpty
  | map entries => entries.isEmpty
  | knot _ v => isEmpty v
  | _ => false

def padded (width n : Nat) : String :=
  let ds := Nat.toDigits 10 n
  String.ofList (List.replicate (width - ds.length) '0' ++ ds)

def dateText (m : Moment) : String := s!"{padded 4 m.year}-{padded 2 m.month}-{padded 2 m.day}"

def offsetText (minutes : Int) : String :=
  let n := minutes.natAbs
  (if minutes < 0 then "-" else "+") ++ s!"{padded 2 (n / 60)}:{padded 2 (n % 60)}"

def timeText (m : Moment) : String :=
  let clock := s!"{dateText m} {padded 2 m.hour}:{padded 2 m.minute}:{padded 2 m.second}"
  let fraction := if m.microsecond == 0 then "" else "." ++ padded 6 m.microsecond
  clock ++ fraction ++ (m.offset.map offsetText).getD ""

def dateInspected (m : Moment) : String := s!"datetime.date({m.year}, {m.month}, {m.day})"

def zoneInspected (minutes : Int) : String :=
  if minutes == 0 then "datetime.timezone.utc"
  else
    let seconds := minutes * 60
    let inner :=
      if seconds < 0 then s!"days=-1, seconds={seconds + 86400}" else s!"seconds={seconds}"
    s!"datetime.timezone(datetime.timedelta({inner}))"

def timeInspected (m : Moment) : String :=
  let parts := [m.year, m.month, m.day, m.hour, m.minute] ++
    (if m.second == 0 && m.microsecond == 0 then [] else [m.second]) ++
    (if m.microsecond == 0 then [] else [m.microsecond])
  let zone := (m.offset.map fun o => ", tzinfo=" ++ zoneInspected o).getD ""
  let inner := ", ".intercalate (parts.map toString)
  s!"datetime.datetime({inner}{zone})"

/-- One byte between two quotes `q`. -/
def byteText (q : Char) (b : UInt8) : List Char :=
  let c := Char.ofNat b.toNat
  if c == q || c == '\\' then ['\\', c]
  else if c == '\n' then ['\\', 'n']
  else if c == '\r' then ['\\', 'r']
  else if c == '\t' then ['\\', 't']
  else if 32 ≤ b.toNat && b.toNat < 127 then [c]
  else '\\' :: 'x' :: Text.hexDigits 2 b.toNat

def bytesText (bs : List UInt8) : String :=
  let q := Text.quoteFor (bs.map fun b => Char.ofNat b.toNat)
  String.ofList ('b' :: q :: bs.flatMap (byteText q) ++ [q])

def boolText (b : Bool) : String := if b then "True" else "False"

/-- Text between braces. -/
def braced (s : String) : String := "\x7b" ++ s ++ "\x7d"

/-- What stands for a collection inside itself. -/
def dots : Value → String
  | list _ => "[...]"
  | tuple _ => "(...)"
  | set _ => "set(...)"
  | _ => braced "..."

mutual

/-- The form of a value inside another one; `around` are the collections around it, each with what
stands for it inside itself. -/
def inspect (around : List (Origin × String)) : Value → String
  | null => "None"
  | bool b => boolText b
  | int n => toString n
  | float x => String.ofList x.text
  | text s => Text.quoted s
  | bytes bs => bytesText bs
  | date m => dateInspected m
  | time m => timeInspected m
  | list items => "[" ++ ", ".intercalate (inspectAll around items) ++ "]"
  | tuple items =>
    match inspectAll around items with
    | [s] => "(" ++ s ++ ",)"
    | ss => "(" ++ ", ".intercalate ss ++ ")"
  | set items =>
    match inspectAll around items with
    | [] => "set()"
    | ss => braced (", ".intercalate ss)
  | map entries => braced (", ".intercalate (inspectEntries around entries))
  | knot o v =>
    match around.lookup o with
    | some s => s
    | none => inspect ((o, v.dots) :: around) v
  | loop o => (around.lookup o).getD ""

def inspectAll (around : List (Origin × String)) : List Value → List String
  | [] => []
  | v :: vs => inspect around v :: inspectAll around vs

def inspectEntries (around : List (Origin × String)) : List (Value × Value) → List String
  | [] => []
  | (k, v) :: es => (inspect around k ++ ": " ++ inspect around v) :: inspectEntries around es

end

/-- The most digits of an integer that is written in base ten. -/
def mostDigits : Nat := 4300

mutual

/-- Whether a value can be written out: none of the integers in it is too long. -/
def isWritable : Value → Bool
  | int n => (Nat.toDigits 10 n.natAbs).length ≤ mostDigits
  | list items => allWritable items
  | tuple items => allWritable items
  | set items => allWritable items
  | map entries => entriesWritable entries
  | knot _ v => v.isWritable
  | _ => true

def allWritable : List Value → Bool
  | [] => true
  | v :: vs => v.isWritable && allWritable vs

def entriesWritable : List (Value × Value) → Bool
  | [] => true
  | (k, v) :: es => k.isWritable && v.isWritable && entriesWritable es

end

/-- The text of a value that can be written out. -/
def display (v : Value) : String :=
  match v with
  | text s => s
  | date m => dateText m
  | time m => timeText m
  | _ => inspect [] v

end Value

end EnvCensus
