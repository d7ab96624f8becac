import EnvCensus.Data.Value
import EnvCensus.Text.Blank
import EnvCensus.Text.Case
import EnvCensus.Yaml.Fault

/-! Tags and the values of scalars.  A plain scalar without a tag has the tag that its form
suggests: a truth value by one of eleven words in three spellings each, a number in base two,
eight, ten, sixteen or sixty, a date or an instant, or nothing at all; any other is a text. -/
namespace EnvCensus.Yaml

inductive Tag where
  | null
  | bool
  | int
  | float
  | binary
  | timestamp
  | omap
  | pairs
  | set
  | str
  | seq
  | map
  | merge
  | value
  | other (name : String)
  deriving DecidableEq, Repr

namespace Tag

def known : List (String × Tag) :=
  [("null", null), ("bool", bool), ("int", int), ("float", float), ("binary", binary),
   ("timestamp", timestamp), ("omap", omap), ("pairs", pairs), ("set", set), ("str", str),
   ("seq", seq), ("map", map), ("merge", merge), ("value", value)]

/-- The text before the names of the known tags. -/
def lead : String := "tag:yaml.org,2002:"

def ofName (name : String) : Tag :=
  match known.find? fun e => lead ++ e.1 == name with
  | some e => e.2
  | none => other name

end Tag

namespace Schema

def isDigitOrLine (c : Char) : Bool := c.isDigit || c == '_'

/-- The text without a sign at its front. -/
def unsigned (cs : List Char) : List Char :=
  match cs with
  | '-' :: rest => rest
  | '+' :: rest => rest
  | _ => cs

/-- Nothing, or an exponent with its sign. -/
def isExponent (cs : List Char) : Bool :=
  match cs with
  | [] => true
  | e :: s :: ds =>
    (e == 'e' || e == 'E') && (s == '-' || s == '+') && ds ≠ [] && ds.all Char.isDigit
  | _ => false

/-- What follows a group of one or two digits below sixty after a colon. -/
def afterSixtieth? (cs : List Char) : Option (List Char) :=
  match cs with
  | ':' :: rest =>
    let ds := rest.takeWhile Char.isDigit
    if ds.length == 1 || (ds.length == 2 && ds.head?.any (· ≤ '5')) then some (rest.drop ds.length)
    else none
  | _ => none

/-- What follows all such groups, at most `fuel`, of which there must be one. -/
def afterSixtieths? : Nat → List Char → Option (List Char)
  | 0, _ => none
  | fuel + 1, cs => do
    let rest ← afterSixtieth? cs
    return (afterSixtieths? fuel rest).getD rest

def isSixtieths (cs : List Char) : Bool := afterSixtieths? cs.length cs == some []

/-- A number in base sixty with a point. -/
def isSixtiethsFloat (cs : List Char) : Bool :=
  match afterSixtieths? cs.length cs with
  | some ('.' :: rest) => rest.all isDigitOrLine
  | _ => false

/-- Digits, a point and perhaps an exponent; a number may start with the point. -/
def isFloat (cs : List Char) : Bool :=
  let body := unsigned cs
  let rest := body.dropWhile isDigitOrLine
  let word := String.ofList body
  [".inf", ".Inf", ".INF"].contains word || [".nan", ".NaN", ".NAN"].contains (String.ofList cs) ||
  (body.head?.any Char.isDigit &&
    (isSixtiethsFloat rest ||
      (rest.head? == some '.' && isExponent ((rest.drop 1).dropWhile isDigitOrLine)))) ||
  (cs.head? == some '.' && (cs.drop 1).head?.any Char.isDigit &&
    isExponent ((cs.drop 1).dropWhile isDigitOrLine))

def isInt (cs : List Char) : Bool :=
  match unsigned cs with
  | ['0'] => true
  | '0' :: 'b' :: ds => ds ≠ [] && ds.all fun c => c == '0' || c == '1' || c == '_'
  | '0' :: 'x' :: ds => ds ≠ [] && ds.all fun c => Text.isHexDigit c || c == '_'
  | '0' :: ds => ds.all fun c => ('0' ≤ c && c ≤ '7') || c == '_'
  | c :: ds =>
    let rest := ds.dropWhile isDigitOrLine
    c.isDigit && (rest == [] || isSixtieths rest)
  | [] => false

/-- A text of between `least` and `most` digits, and what follows it. -/
def digits? (least most : Nat) (cs : List Char) : Option (Nat × List Char) :=
  let ds := (cs.take most).takeWhile Char.isDigit
  if ds.length < least then none
  else some (ds.foldl (fun n d => 10 * n + (d.toNat - '0'.toNat)) 0, cs.drop ds.length)

def char? (c : Char) (cs : List Char) : Option (List Char) :=
  if cs.head? == some c then some (cs.drop 1) else none

/-- A number after a given character. -/
def after? (c : Char) (least most : Nat) (cs : List Char) : Option (Nat × List Char) :=
  (char? c cs).bind (digits? least most)

def isGap (c : Char) : Bool := c == ' ' || c == '\t'

/-- What may stand between a date and a time. -/
def afterJoint? (cs : List Char) : Option (List Char) :=
  match cs with
  | c :: rest =>
    if c == 'T' || c == 't' then some rest
    else if isGap c then some (rest.dropWhile isGap)
    else none
  | [] => none

/-- Six digits of a fraction of a second. -/
def microseconds (ds : List Char) : Nat :=
  ((ds ++ List.replicate 6 '0').take 6).foldl (fun n d => 10 * n + (d.toNat - '0'.toNat)) 0

/-- The offset at the end of an instant in minutes, if it has one. -/
def offset? (cs : List Char) : Option (Option Int) :=
  match cs.dropWhile isGap with
  | [] => if cs == [] then some none else none
  | ['Z'] => some (some 0)
  | sign :: rest =>
    if sign == '-' || sign == '+' then do
      let (h, rest) ← digits? 1 2 rest
      let (m, rest) ← if rest == [] then some (0, []) else after? ':' 2 2 rest
      if rest ≠ [] then none
      else
        let n : Int := h * 60 + m
        some (some (if sign == '-' then -n else n))
    else none

/-- Year, month and day, and what follows. -/
def date? (cs : List Char) : Option (Moment × List Char) := do
  let (year, rest) ← digits? 4 4 cs
  let (month, rest) ← after? '-' 1 2 rest
  let (day, rest) ← after? '-' 1 2 rest
  return ({ year, month, day }, rest)

/-- The time of day behind a date. -/
def clock? (m : Moment) (cs : List Char) : Option Moment := do
  let rest ← afterJoint? cs
  let (hour, rest) ← digits? 1 2 rest
  let (minute, rest) ← after? ':' 2 2 rest
  let (second, rest) ← after? ':' 2 2 rest
  let fraction := ((char? '.' rest).getD []).takeWhile Char.isDigit
  let rest := ((char? '.' rest).map fun r => r.drop fraction.length).getD rest
  let offset ← offset? rest
  return { m with hour, minute, second, microsecond := microseconds fraction, offset }

/-- A date alone, or a date with a time; whether there is a time. -/
def moment? (cs : List Char) : Option (Moment × Bool) := do
  let (m, rest) ← date? cs
  if rest == [] then return (m, false)
  return (← clock? m rest, true)

/-- A date alone has two digits for month and day. -/
def isTimestamp (cs : List Char) : Bool :=
  match moment? cs with
  | some (_, timed) => timed || cs.length == 10
  | none => false

def truths : List (String × Bool) :=
  [("yes", true), ("no", false), ("true", true), ("false", false), ("on", true), ("off", false)]

/-- A word in lower case, with a capital, or in capitals. -/
def spellings (word : String) : List String :=
  [word, String.ofList (word.toList.mapIdx fun i c => if i = 0 then c.toUpper else c),
   String.ofList (word.toList.map Char.toUpper)]

def isBool (s : String) : Bool := truths.any fun t => (spellings t.1).contains s

def isNull (s : String) : Bool := s == "" || s == "~" || (spellings "null").contains s

/-- The tag that the form of a plain scalar suggests; a line break at the end does not count. -/
def suggested (text : String) : Tag :=
  let cs := text.toList
  let cs := if cs.length > 1 && cs.getLast? == some '\n' then cs.dropLast else cs
  let s := String.ofList cs
  if isBool s then .bool
  else if isFloat cs then .float
  else if isInt cs then .int
  else if s == "<<" then .merge
  else if isNull s then .null
  else if isTimestamp cs then .timestamp
  else if s == "=" then .value
  else .str

/-- Digits in a base up to sixteen. -/
def digitsIn? (base : Nat) (cs : List Char) : Option Nat :=
  if cs ≠ [] && cs.all fun c => Text.isHexDigit c && Text.hexValue c < base then
    some (cs.foldl (fun n c => base * n + Text.hexValue c) 0)
  else none

/-- The letter that may introduce the digits of a base. -/
def baseLetter : Nat → Option Char
  | 2 => some 'b'
  | 8 => some 'o'
  | 16 => some 'x'
  | _ => none

/-- An integer in a base, with a sign, between blanks and with the letter of its base. -/
def integer? (base : Nat) (cs : List Char) : Except ScalarFault Int :=
  let cs := Text.trim cs
  let body := unsigned cs
  let ds :=
    match body with
    | '0' :: l :: rest => if (baseLetter base).any (· == l.toLower) then rest else body
    | _ => body
  if base == 10 && ds.length > Value.mostDigits && ds.all Char.isDigit then
    .error (.tooManyDigits (String.ofList cs))
  else
    match digitsIn? base ds with
    | some n => .ok (if cs.head? == some '-' then -(n : Int) else n)
    | none => .error (.notNumber (String.ofList cs))

/-- A decimal number with a point or an exponent, between blanks, or a word for what is none. -/
def decimal? (cs : List Char) : Except ScalarFault Binary64 :=
  let cs := Text.trim cs
  let negative := cs.head? == some '-'
  let body := unsigned cs
  let word := (String.ofList body).toLower
  let whole := body.takeWhile Char.isDigit
  let rest := body.drop whole.length
  let fraction := ((char? '.' rest).getD []).takeWhile Char.isDigit
  let rest := ((char? '.' rest).map fun r => r.drop fraction.length).getD rest
  let bad := Except.error (ScalarFault.notNumber (String.ofList cs))
  let number (power : Int) : Binary64 :=
    .ofDecimal negative
      ((whole ++ fraction).foldl (fun n d => 10 * n + (d.toNat - '0'.toNat)) 0)
      (power - fraction.length)
  if word == "inf" || word == "infinity" then .ok (.infinite negative)
  else if word == "nan" then .ok .nan
  else if whole.isEmpty && fraction.isEmpty then bad
  else
    match rest with
    | [] => .ok (number 0)
    | e :: tail =>
      let ds := unsigned tail
      if e.toLower == 'e' && ds ≠ [] && ds.all Char.isDigit then
        let n := ds.foldl (fun n d => 10 * n + (d.toNat - '0'.toNat)) 0
        .ok (number (if tail.head? == some '-' then -(n : Int) else n))
      else bad

/-- The pieces of a text between colons. -/
def colonPieces : List Char → List (List Char)
  | [] => [[]]
  | ':' :: rest => [] :: colonPieces rest
  | c :: rest =>
    match colonPieces rest with
    | [] => [[c]]
    | piece :: more => (c :: piece) :: more

def negateIf (negative : Bool) (n : Int) : Int := if negative then -n else n

/-- The integer that a scalar stands for. -/
def intValue (text : String) : Except ScalarFault Int := do
  let cs := text.toList.filter (· ≠ '_')
  if cs.isEmpty then throw .empty
  let negative := cs.head? == some '-'
  let body := unsigned cs
  match body with
  | [] => throw .empty
  | ['0'] => return 0
  | '0' :: 'b' :: ds => return negateIf negative (← integer? 2 ds)
  | '0' :: 'x' :: ds => return negateIf negative (← integer? 16 ds)
  | '0' :: _ => return negateIf negative (← integer? 8 body)
  | _ =>
    if body.contains ':' then
      let parts ← (colonPieces body).mapM (integer? 10)
      return negateIf negative (parts.foldl (fun n p => 60 * n + p) 0)
    else return negateIf negative (← integer? 10 body)

/-- The sum of parts in base sixty, the last of which counts once: part by part from the last one,
each product and each sum rounded. -/
def sixtiethsSum (parts : List Binary64) : Except ScalarFault Binary64 :=
  parts.reverse.zipIdx.foldlM (fun sum (p, i) =>
    match Binary64.ofRatio false (Nat.pow 60 i) 1 with
    | .infinite _ => .error .tooLarge
    | unit => .ok (sum.add (p.mul unit))) (.zero false)

/-- The floating-point number that a scalar stands for. -/
def floatValue (text : String) : Except ScalarFault Binary64 := do
  let cs := (text.toList.filter (· ≠ '_')).map Char.toLower
  if cs.isEmpty then throw .empty
  let negative := cs.head? == some '-'
  let body := unsigned cs
  let signed (x : Binary64) : Binary64 := if negative then x.neg else x
  if body == ".inf".toList then return signed (.infinite false)
  if body == ".nan".toList then return .nan
  if body.contains ':' then
    let parts ← (colonPieces body).mapM decimal?
    return signed (← sixtiethsSum parts)
  return signed (← decimal? body)

def boolValue (text : String) : Except ScalarFault Bool :=
  match truths.lookup text.toLower with
  | some b => .ok b
  | none => .error (.notBoolean text)

/-- The date or instant that a scalar stands for. -/
def momentValue (text : String) : Except ScalarFault Value :=
  match moment? text.toList with
  | none => .error (.notMoment text)
  | some (m, timed) =>
    if !m.exists? then .error (.impossibleDate text)
    else .ok (if timed then .time m else .date m)

/-- The value of a character in base sixty-four. -/
def sextet? (c : Char) : Option Nat :=
  if 'A' ≤ c && c ≤ 'Z' then some (c.toNat - 'A'.toNat)
  else if 'a' ≤ c && c ≤ 'z' then some (c.toNat - 'a'.toNat + 26)
  else if c.isDigit then some (c.toNat - '0'.toNat + 52)
  else if c == '+' then some 62
  else if c == '/' then some 63
  else none

/-- The bytes of a text in base sixty-four, other characters ignored: `place` sextets of a group of
four have been read, the last of them with the value `left`, and `pads` padding characters. -/
def bytesFrom (place left pads : Nat) : List Char → Option (List UInt8)
  | [] => if place == 0 then some [] else none
  | '=' :: rest =>
    if place ≥ 2 then
      if place + pads + 1 ≥ 4 then some [] else bytesFrom place left (pads + 1) rest
    else bytesFrom place left pads rest
  | c :: rest =>
    match sextet? c with
    | none => bytesFrom place left pads rest
    | some v =>
      match place with
      | 0 => bytesFrom 1 v 0 rest
      | 1 => (bytesFrom 2 (v % 16) 0 rest).map (UInt8.ofNat (left * 4 + v / 16) :: ·)
      | 2 => (bytesFrom 3 (v % 4) 0 rest).map (UInt8.ofNat (left * 16 + v / 4) :: ·)
      | _ => (bytesFrom 0 0 0 rest).map (UInt8.ofNat (left * 64 + v) :: ·)

/-- The bytes that a scalar encodes, if all its characters are ASCII and its groups are full. -/
def bytes? (text : String) : Option (List UInt8) :=
  if text.toList.all fun c => c.toNat < 128 then bytesFrom 0 0 0 text.toList else none

end Schema

end EnvCensus.Yaml
