/-! Binary floating-point numbers of 64 bits, as exact values.  A finite number is a significand
times a power of two; reading rounds a ratio to the nearest number, ties to the even significand,
and printing takes the fewest decimal digits that read back as the same number. -/
namespace EnvCensus

inductive Binary64 where
  | finite (negative : Bool) (significand : Nat) (exponent : Int)
  | infinite (negative : Bool)
  | nan
  deriving DecidableEq, Repr

namespace Binary64

def leastExponent : Int := -1074

def greatestExponent : Int := 971

def zero (negative : Bool) : Binary64 := .finite negative 0 leastExponent

/-- The quotient of `num` by `den` times a power of two, rounded to the nearest integer, ties to
the even one. -/
def roundQuotient (num den : Nat) : Nat :=
  let q := num / den
  let r := num % den
  if 2 * r > den || (2 * r == den && q % 2 == 1) then q + 1 else q

/-- The exponent at which `num / den` has a significand of 53 bits, or the least one. -/
def exponentFor (num den : Nat) : Int :=
  let e : Int := (num.log2 : Int) - (den.log2 : Int) - 52
  let small :=
    if e ≥ 0 then num < Nat.pow 2 52 * (den * Nat.pow 2 e.toNat)
    else num * Nat.pow 2 (-e).toNat < Nat.pow 2 52 * den
  max leastExponent (if small then e - 1 else e)

/-- The number nearest to `num / den`, with the given sign. -/
def ofRatio (negative : Bool) (num den : Nat) : Binary64 :=
  if num == 0 || den == 0 then zero negative
  else
    let e := exponentFor num den
    let q :=
      if e ≥ 0 then roundQuotient num (den * Nat.pow 2 e.toNat)
      else roundQuotient (num * Nat.pow 2 (-e).toNat) den
    let (q, e) := if q == Nat.pow 2 53 then (Nat.pow 2 52, e + 1) else (q, e)
    if e > greatestExponent then .infinite negative else .finite negative q e

/-- The number nearest to `digits` times a power of ten. -/
def ofDecimal (negative : Bool) (digits : Nat) (power : Int) : Binary64 :=
  if digits == 0 then zero negative
  else
    let magnitude : Int := (Nat.toDigits 10 digits).length + power
    if magnitude > 400 then .infinite negative
    else if magnitude < -400 then zero negative
    else if power ≥ 0 then ofRatio negative (digits * Nat.pow 10 power.toNat) 1
    else ofRatio negative digits (Nat.pow 10 (-power).toNat)

/-- The absolute value of a finite number as a ratio. -/
def ratioOf (significand : Nat) (exponent : Int) : Nat × Nat :=
  if exponent ≥ 0 then (significand * Nat.pow 2 exponent.toNat, 1)
  else (significand, Nat.pow 2 (-exponent).toNat)

/-- The number nearest to the sum of two ratios with signs. -/
def addRatios (a b : Bool × Nat × Nat) : Binary64 :=
  let (sa, na, da) := a
  let (sb, nb, db) := b
  let x : Int := (if sa then -1 else 1) * (na * db : Nat)
  let y : Int := (if sb then -1 else 1) * (nb * da : Nat)
  let s := x + y
  if s == 0 then zero (sa && sb) else ofRatio (s < 0) s.natAbs (da * db)

def add : Binary64 → Binary64 → Binary64
  | .nan, _ => .nan
  | _, .nan => .nan
  | .infinite s, .infinite t => if s == t then .infinite s else .nan
  | .infinite s, _ => .infinite s
  | _, .infinite t => .infinite t
  | .finite s m e, .finite t n f => addRatios (s, ratioOf m e) (t, ratioOf n f)

def isZero : Binary64 → Bool
  | .finite _ m _ => m == 0
  | _ => false

def isNegative : Binary64 → Bool
  | .finite s _ _ => s
  | .infinite s => s
  | .nan => false

/-- The product, rounded; nothing times an infinite number is no number. -/
def mul : Binary64 → Binary64 → Binary64
  | .nan, _ => .nan
  | _, .nan => .nan
  | .finite s m e, .finite t n f =>
    let (a, b) := ratioOf m e
    let (c, d) := ratioOf n f
    ofRatio (s != t) (a * c) (b * d)
  | x, y =>
    if x.isZero || y.isZero then .nan else .infinite (x.isNegative != y.isNegative)

def neg : Binary64 → Binary64
  | .finite s m e => .finite (!s) m e
  | .infinite s => .infinite (!s)
  | .nan => .nan

/-- The integer that a number is equal to, if there is one. -/
def toInt? : Binary64 → Option Int
  | .finite s m e =>
    let (n, d) := ratioOf m e
    if n % d == 0 then some ((if s then -1 else 1) * (n / d : Nat)) else none
  | _ => none

/-- The least `j ≤ fuel` from `j` on with `num * 10 ^ j ≥ den`. -/
def leadingZeros (num den : Nat) : Nat → Nat → Nat
  | 0, j => j
  | fuel + 1, j => if num * Nat.pow 10 j ≥ den then j else leadingZeros num den fuel (j + 1)

/-- The power of ten of the first digit of a positive ratio. -/
def decimalExponent (num den : Nat) : Int :=
  if num ≥ den then ((Nat.toDigits 10 (num / den)).length : Int) - 1
  else -(leadingZeros num den 400 1 : Int)

/-- Whether `digits` times a power of ten rounds to the number; `lower` and `upper` bound the
values that do, in quarters of its unit, and count themselves for an even significand. -/
def readsBack (significand : Nat) (exponent : Int) (digits : Nat) (power : Int) : Bool :=
  let upper := 4 * significand + 2
  let lower :=
    if significand == Nat.pow 2 52 && exponent > leastExponent then 4 * significand - 1
    else 4 * significand - 2
  let e := exponent - 2
  let side := if power ≥ 0 then digits * Nat.pow 10 power.toNat else digits
  let scaleUp := if power ≥ 0 then 1 else Nat.pow 10 (-power).toNat
  let (left, unit) := if e ≥ 0 then (side, Nat.pow 2 e.toNat) else (side * Nat.pow 2 (-e).toNat, 1)
  let low := lower * unit * scaleUp
  let high := upper * unit * scaleUp
  if significand % 2 == 0 then low ≤ left && left ≤ high else low < left && left < high

/-- The digits and the power of ten of the nearest value with `count` digits that reads back. -/
def withDigits? (significand : Nat) (exponent : Int) (count : Nat) : Option (Nat × Int) :=
  let (num, den) := ratioOf significand exponent
  let power := decimalExponent num den - (count : Int) + 1
  let (n, d) :=
    if power ≥ 0 then (num, den * Nat.pow 10 power.toNat)
    else (num * Nat.pow 10 (-power).toNat, den)
  let below := n / d
  let twice := 2 * (n % d)
  let belowFits := readsBack significand exponent below power
  let aboveFits := readsBack significand exponent (below + 1) power
  if belowFits && (!aboveFits || twice < d || (twice == d && below % 2 == 0)) then
    some (below, power)
  else if aboveFits then some (below + 1, power)
  else none

/-- The first count of digits from `count` on, at most `fuel` of them, with a value that reads
back. -/
def shortestFrom (significand : Nat) (exponent : Int) : Nat → Nat → Nat × Int
  | 0, _ => (significand, exponent)
  | fuel + 1, count =>
    match withDigits? significand exponent count with
    | some r => r
    | none => shortestFrom significand exponent fuel (count + 1)

/-- The fewest digits that read back, and the power of ten of the last one. -/
def shortest (significand : Nat) (exponent : Int) : Nat × Int :=
  shortestFrom significand exponent 17 1

def dropTrailingZeros (ds : List Char) : List Char := (ds.reverse.dropWhile (· == '0')).reverse

/-- Exponents of scientific notation have a sign and at least two digits. -/
def exponentText (e : Int) : List Char :=
  let ds := Nat.toDigits 10 e.natAbs
  (if e < 0 then '-' else '+') :: (if ds.length < 2 then '0' :: ds else ds)

/-- Numbers from a ten-thousandth up to ten to the sixteenth are written positionally, with a
digit on either side of the point; all others scientifically. -/
def digitsText (ds : List Char) (lead : Int) : List Char :=
  if -4 ≤ lead && lead < 16 then
    if lead < 0 then "0.".toList ++ List.replicate ((-lead).toNat - 1) '0' ++ ds
    else
      let whole := lead.toNat + 1
      if ds.length ≤ whole then ds ++ List.replicate (whole - ds.length) '0' ++ ".0".toList
      else ds.take whole ++ '.' :: ds.drop whole
  else
    match ds with
    | [] => []
    | d :: rest =>
      d :: (if rest.isEmpty then [] else '.' :: rest) ++ 'e' :: exponentText lead

/-- The text of a number. -/
def text : Binary64 → List Char
  | .nan => "nan".toList
  | .infinite s => if s then "-inf".toList else "inf".toList
  | .finite s m e =>
    let sign := if s then ['-'] else []
    if m == 0 then sign ++ "0.0".toList
    else
      let (digits, power) := shortest m e
      let ds := Nat.toDigits 10 digits
      sign ++ digitsText (dropTrailingZeros ds) (power + (ds.length : Int) - 1)

end Binary64

end EnvCensus
