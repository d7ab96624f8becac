/-! Codes of characters.  Hexadecimal digits are read in either case and written in lower case.  Of
codes of sixteen bits, characters beyond them take two, a high half before a low half.  A text may
hold a half alone, which is no character: a character for private use stands in for it. -/
namespace EnvCensus.Text

def isHexDigit (c : Char) : Bool :=
  c.isDigit || ('a' ≤ c && c ≤ 'f') || ('A' ≤ c && c ≤ 'F')

def hexValue (c : Char) : Nat :=
  if c.isDigit then c.toNat - '0'.toNat
  else if 'a' ≤ c then c.toNat - 'a'.toNat + 10
  else c.toNat - 'A'.toNat + 10

def hexNumber (cs : List Char) : Nat := cs.foldl (fun n c => 16 * n + hexValue c) 0

/-- The last `width` hexadecimal digits of `n`, in lower case. -/
def hexDigits : Nat → Nat → List Char
  | 0, _ => []
  | width + 1, n => hexDigits width (n / 16) ++ [Nat.digitChar (n % 16)]

def isHighHalf (n : Nat) : Bool := 0xD800 ≤ n && n < 0xDC00

def isLowHalf (n : Nat) : Bool := 0xDC00 ≤ n && n < 0xE000

/-- The character that two halves stand for. -/
def joinHalves (high low : Nat) : Char :=
  Char.ofNat (0x10000 + (high - 0xD800) * 0x400 + (low - 0xDC00))

/-- The first of the characters that stand in for halves. -/
def firstSpare : Nat := 0x10F000

/-- Whether a character stands in for a half. -/
def isSpare (c : Char) : Bool := firstSpare ≤ c.toNat && c.toNat < firstSpare + 0x800

/-- The character with a code, or what stands in for a half. -/
def charOfUnit (n : Nat) : Char :=
  if isHighHalf n || isLowHalf n then Char.ofNat (firstSpare + (n - 0xD800)) else Char.ofNat n

/-- The code of a character, or of the half that it stands in for. -/
def unitOf (c : Char) : Nat := if isSpare c then 0xD800 + (c.toNat - firstSpare) else c.toNat

/-! Sets of code points given by their ranges, in increasing order. -/

/-- Whether one of the ranges holds the code point; the search stops at the first range that
begins beyond it. -/
def inRanges : List (Nat × Nat) → Nat → Bool
  | [], _ => false
  | (lo, hi) :: rest, n => if n < lo then false else if n ≤ hi then true else inRanges rest n

end EnvCensus.Text
