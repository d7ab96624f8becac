import EnvCensus.Script.Tree

/-! Reading a script from left to right.  A cursor stands at the next token and remembers the gap
of blanks and comments before it; parsers move cursors forward and may fail.  A semicolon that a
line break implies is decided here, on the gap and the character after it. -/
namespace EnvCensus.Script

/-- The languages a script may be written in. -/
inductive Dialect where
  | javascript
  | typescript
  | tsx
  deriving DecidableEq, Repr

def Dialect.isTyped (d : Dialect) : Bool := d ≠ .javascript

def Dialect.hasElements (d : Dialect) : Bool := d ≠ .typescript

/-- Blanks that separate tokens. -/
def isGapBlank (c : Char) : Bool :=
  let n := c.toNat
  (9 ≤ n && n ≤ 13) || n == 32 || n == 0xA0 || n == 0x1680 || (0x2000 ≤ n && n ≤ 0x200B) ||
    n == 0x2028 || n == 0x2029 || n == 0x202F || n == 0x205F || n == 0x2060 || n == 0x3000 ||
    n == 0xFEFF

/-- Characters that end a line comment. -/
def endsLineComment (c : Char) : Bool :=
  c == '\n' || c == '\r' || c == '\u2028' || c == '\u2029'

/-- Where a gap is being read: between tokens, in a line comment or in a block comment. -/
inductive GapState where
  | blank
  | line
  | block
  deriving DecidableEq

/-- The length of the gap at the front of a text, for given blanks and ends of line comments.
`seen` characters were read, the first `sure` of which belong to the gap whatever follows; an
unclosed block comment is no gap. -/
def gapLengthFrom (blank endsLine : Char → Bool) : GapState → Nat → Nat → List Char → Nat
  | .block, _, sure, [] => sure
  | .line, seen, _, [] => seen
  | .blank, seen, _, [] => seen
  | .block, seen, _, '*' :: '/' :: rest =>
    gapLengthFrom blank endsLine .blank (seen + 2) (seen + 2) rest
  | .block, seen, sure, _ :: rest => gapLengthFrom blank endsLine .block (seen + 1) sure rest
  | .line, seen, sure, c :: rest =>
    if endsLine c then gapLengthFrom blank endsLine .blank (seen + 1) (seen + 1) rest
    else gapLengthFrom blank endsLine .line (seen + 1) sure rest
  | .blank, seen, _, '/' :: '/' :: rest =>
    gapLengthFrom blank endsLine .line (seen + 2) seen rest
  | .blank, seen, _, '/' :: '*' :: rest =>
    gapLengthFrom blank endsLine .block (seen + 2) seen rest
  | .blank, seen, _, c :: rest =>
    if blank c then gapLengthFrom blank endsLine .blank (seen + 1) (seen + 1) rest else seen

def gapLength (cs : List Char) : Nat := gapLengthFrom isGapBlank endsLineComment .blank 0 0 cs

/-- A place between two tokens: what follows the last token as it stands, and what follows the
gap after it. -/
structure Cursor where
  raw : List Char
  rawAt : Point
  gap : List Char
  rest : List Char
  here : Point
  deriving Inhabited

/-- The cursor after a token that ends at `p` before `cs`. -/
def Cursor.at (p : Point) (cs : List Char) : Cursor :=
  let n := gapLength cs
  let gap := cs.take n
  ⟨cs, p, gap, cs.drop n, p.advance gap⟩

abbrev Parser := StateT Cursor Option

namespace Parser

/-- The text at the next token. -/
def peek : Parser (List Char) := fun c => some (c.rest, c)

/-- The text right after the last token. -/
def peekRaw : Parser (List Char) := fun c => some (c.raw, c)

/-- Fails unless the condition holds. -/
def ensure (b : Bool) : Parser Unit := fun c => if b then some ((), c) else none

/-- A token of the next `n` characters. -/
def take (kind : Kind) (n : Nat) : Parser Tree := fun c =>
  let text := c.rest.take n
  let stop := c.here.advance text
  some (.token .plain kind c.gap text c.here stop, Cursor.at stop (c.rest.drop n))

/-- A token of `n` characters right after the last token, gap or not. -/
def takeRaw (kind : Kind) (n : Nat) : Parser Tree := fun c =>
  let text := c.raw.take n
  let stop := c.rawAt.advance text
  some (.token .plain kind [] text c.rawAt stop, Cursor.at stop (c.raw.drop n))

/-- Zero or more times, as long as the parser succeeds; `fuel` bounds the number. -/
def manyFrom (p : Parser (List Tree)) : Nat → List Tree → Cursor → Option (List Tree × Cursor)
  | 0, done, c => some (done.reverse, c)
  | fuel + 1, done, c =>
    match p c with
    | some (ts, c') => manyFrom p fuel (ts.reverse ++ done) c'
    | none => some (done.reverse, c)

def many (fuel : Nat) (p : Parser (List Tree)) : Parser (List Tree) := manyFrom p fuel []

/-- The parser's trees, or none. -/
def maybe (p : Parser (List Tree)) : Parser (List Tree) := p <|> pure []

/-- One tree as a list. -/
def one (p : Parser Tree) : Parser (List Tree) := do return [← p]

/-- Succeeds where the parser fails, and moves nowhere. -/
def notAhead (p : Parser Unit) : Parser Unit := fun c =>
  match p c with
  | some _ => none
  | none => some ((), c)

/-- Whether the parser would succeed; moves nowhere. -/
def ahead (p : Parser Unit) : Parser Bool := fun c =>
  match p c with
  | some _ => some (true, c)
  | none => some (false, c)

def nodeOf (kind : Kind) (p : Parser (List Tree)) : Parser Tree := do return .node .plain kind (← p)

end Parser

/-- Blanks for the rule of implied semicolons: of the blanks above 127, only those that allow a
line to be broken. -/
def isSoftBlank (c : Char) : Bool :=
  let n := c.toNat
  (9 ≤ n && n ≤ 13) || n == 32 || n == 0x1680 || (0x2000 ≤ n && n ≤ 0x200A && n != 0x2007) ||
    n == 0x2028 || n == 0x2029 || n == 0x205F || n == 0x3000

/-- Line breaks that may imply a semicolon. -/
def impliesBreak (d : Dialect) (c : Char) : Bool :=
  c == '\n' || (!d.isTyped && (c == '\u2028' || c == '\u2029'))

/-- Whether the first token of a text carries on the statement on the line before it. -/
def continues (d : Dialect) (afterOperand : Bool) (cs : List Char) : Bool :=
  match cs with
  | [] => false
  | c :: rest =>
    if ['\x60', ',', ':', ';', '*', '%', '>', '<', '=', '?', '^', '|', '&', '/'].contains c then true
    else if c == '.' then d.isTyped || !(rest.head?.any Char.isDigit)
    else if c == '(' || c == '[' then !d.isTyped || afterOperand
    else if c == '+' || c == '-' then rest.head? ≠ some c
    else if c == '!' then rest.head? == some '='
    else
      match cs with
      | 'i' :: 'n' :: more =>
        if !(more.head?.any Char.isAlpha) then true
        else "stanceof".toList.isPrefixOf more && !((more.drop 8).head?.any Char.isAlpha)
      | _ => false

/-- What follows the blanks and comments after a line break. -/
def nextLine (d : Dialect) (cs : List Char) : List Char :=
  cs.drop (gapLengthFrom isSoftBlank (impliesBreak d) .blank 0 0 cs)

/-- Whether a semicolon may be left out before a text that follows a complete statement: at the
end, before a closing brace, and after a line break when the next line does not carry on.
`afterOperand` tells whether the statement so far ends in an operand; where it does not, a block
comment that spans lines (`broken`) counts as a line break too. -/
def semicolonFrom (d : Dialect) (afterOperand : Bool) : GapState → Bool → List Char → Bool
  | .block, _, [] => false
  | .line, _, [] => true
  | .blank, _, [] => true
  | .block, broken, '*' :: '/' :: rest =>
    if broken && !afterOperand && !d.isTyped then
      !(rest.head? == some ',' || rest.head? == some '=')
    else semicolonFrom d afterOperand .blank false rest
  | .block, broken, c :: rest =>
    semicolonFrom d afterOperand .block (broken || impliesBreak d c) rest
  | .line, broken, c :: rest =>
    if impliesBreak d c then !continues d afterOperand (nextLine d rest)
    else semicolonFrom d afterOperand .line broken rest
  | .blank, _, '/' :: '/' :: rest => semicolonFrom d afterOperand .line false rest
  | .blank, _, '/' :: '*' :: rest => semicolonFrom d afterOperand .block false rest
  | .blank, broken, c :: rest =>
    if c == '}' then true
    else if impliesBreak d c then !continues d afterOperand (nextLine d rest)
    else if isSoftBlank c then semicolonFrom d afterOperand .blank broken rest
    else false

def mayEndStatement (d : Dialect) (afterOperand : Bool) (raw : List Char) : Bool :=
  semicolonFrom d afterOperand .blank false raw

end EnvCensus.Script
