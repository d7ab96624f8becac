import EnvCensus.Text.Code
import EnvCensus.Text.Quoted

/-! UTF-8.  Every text has a written form in bytes; not all bytes are the form of a text.  Where
bytes cannot be read, the longest part that could have begun a character is passed over as one
fault. -/
namespace EnvCensus.Text

/-- The bytes of a text. -/
def encode (cs : List Char) : List UInt8 := cs.flatMap String.utf8EncodeChar

/-- For the first byte of a character of several bytes: its own bits, the range of the second byte
and the number of bytes after the second. -/
def leadByte? (b : UInt8) : Option (Nat × UInt8 × UInt8 × Nat) :=
  let n := b.toNat
  if 0xC2 ≤ n && n ≤ 0xDF then some (n - 0xC0, 0x80, 0xBF, 0)
  else if n == 0xE0 then some (0, 0xA0, 0xBF, 1)
  else if n == 0xED then some (0xD, 0x80, 0x9F, 1)
  else if 0xE1 ≤ n && n ≤ 0xEF then some (n - 0xE0, 0x80, 0xBF, 1)
  else if n == 0xF0 then some (0, 0x90, 0xBF, 2)
  else if 0xF1 ≤ n && n ≤ 0xF3 then some (n - 0xF0, 0x80, 0xBF, 2)
  else if n == 0xF4 then some (4, 0x80, 0x8F, 2)
  else none

/-- Takes `count` further bytes of a character whose bits so far are `bits`; what follows the last
byte that fits is left. -/
def takeTrail (bits : Nat) : Nat → List UInt8 → Option Nat × List UInt8
  | 0, bs => (some bits, bs)
  | count + 1, b :: bs =>
    if 0x80 ≤ b && b ≤ 0xBF then takeTrail (bits * 64 + (b.toNat - 0x80)) count bs
    else (none, b :: bs)
  | _ + 1, [] => (none, [])

theorem takeTrail_length (bits count : Nat) (bs : List UInt8) :
    (takeTrail bits count bs).2.length ≤ bs.length := by
  fun_induction takeTrail bits count bs with
  | case1 => exact Nat.le_refl _
  | case2 _ _ b bs _ ih => simp only [List.length_cons]; omega
  | case3 => exact Nat.le_refl _
  | case4 => exact Nat.le_refl _

/-- The first character of the bytes after their first byte `b`, absent at a fault, and the bytes
after it. -/
def decodeFrom (b : UInt8) (bs : List UInt8) : Option Char × List UInt8 :=
  if b < 0x80 then (some (Char.ofNat b.toNat), bs)
  else
    match leadByte? b, bs with
    | some (bits, lo, hi, count), c :: rest =>
      if lo ≤ c && c ≤ hi then
        let (code, after) := takeTrail (bits * 64 + (c.toNat - 0x80)) count rest
        (code.map Char.ofNat, after)
      else (none, c :: rest)
    | _, _ => (none, bs)

theorem decodeFrom_length (b : UInt8) (bs : List UInt8) :
    (decodeFrom b bs).2.length ≤ bs.length := by
  unfold decodeFrom
  split
  · exact Nat.le_refl _
  · split
    · split
      · have := takeTrail_length
        simp only [List.length_cons]
        exact Nat.le_succ_of_le (this _ _ _)
      · exact Nat.le_refl _
    · exact Nat.le_refl _

/-- The characters of the bytes after those in `done`, which is in reverse; `fault` stands for
each fault and no fault may occur where it is absent. -/
def decodeOnto (fault : Option Char) (done : List Char) : List UInt8 → Option (List Char)
  | [] => some done.reverse
  | b :: bs =>
    match h : decodeFrom b bs with
    | (some c, rest) =>
      have : rest.length < bs.length + 1 := by
        have := decodeFrom_length b bs
        rw [h] at this
        exact Nat.lt_succ_of_le this
      decodeOnto fault (c :: done) rest
    | (none, rest) =>
      have : rest.length < bs.length + 1 := by
        have := decodeFrom_length b bs
        rw [h] at this
        exact Nat.lt_succ_of_le this
      match fault with
      | some c => decodeOnto fault (c :: done) rest
      | none => none
termination_by bs => bs.length

/-- The text that the bytes are the form of, if there is one. -/
def decode? (bs : List UInt8) : Option (List Char) := decodeOnto none [] bs

/-- The text of the bytes with a replacement character for each fault. -/
def decodeLossy (bs : List UInt8) : List Char :=
  (decodeOnto (some (Char.ofNat 0xFFFD)) [] bs).getD []

end EnvCensus.Text

/-! Texts with halves of characters in them.  A half has no bytes, so such a text can be neither
written nor printed; where errors are told, a half is told by its code.  Which characters stand in
for halves is open, for a text may hold all characters that there are. -/
namespace EnvCensus.Text

/-- The characters that stand in for halves. -/
class Halves where
  isHalf : Char → Bool

instance : Halves := ⟨isSpare⟩

variable [Halves]

/-- Whether a text holds no half. -/
def isWhole (cs : List Char) : Bool := cs.all fun c => !Halves.isHalf c

/-- The bytes of a text, if it has any. -/
def encode? (cs : List Char) : Option (List UInt8) := if isWhole cs then some (encode cs) else none

/-- The text with the codes of the halves in their place. -/
def toldHalves (cs : List Char) : List Char :=
  cs.flatMap fun c => if Halves.isHalf c then codeEscape (unitOf c) else [c]

end EnvCensus.Text
