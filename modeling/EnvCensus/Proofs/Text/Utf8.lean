import EnvCensus.Text.Utf8
import Mathlib.Data.Char
import Mathlib.Data.List.Basic

/-!
# Reading what has been written

A character of several bytes is written as a first byte, which tells its length
and its highest bits, and trailing bytes of six bits each. Reading undoes this,
and it reads nothing else: bytes are read as a text just when they are its
written form. Where faults are let pass, a line feed still parts the bytes
before it from those after it.
-/

namespace EnvCensus.Text

/-- The trailing byte of the last six bits of a number. -/
def trail (x : Nat) : UInt8 := UInt8.ofNat (x % 64 + 128)

theorem toNat_trail (x : Nat) : (trail x).toNat = x % 64 + 128 :=
  UInt8.toNat_ofNat_of_lt' (by omega : x % 64 + 128 < 256)

theorem trail_of_toNat {b : UInt8} (low : 0x80 ≤ b.toNat) (high : b.toNat ≤ 0xBF) :
    trail (b.toNat - 0x80) = b := by
  refine UInt8.toNat_inj.mp ?_
  rw [toNat_trail]
  omega

/-! ### Trailing bytes -/

theorem takeTrail_trail (bits count x : Nat) (bs : List UInt8) :
    takeTrail bits (count + 1) (trail x :: bs) = takeTrail (bits * 64 + x % 64) count bs := by
  have fits : 0x80 ≤ trail x ∧ trail x ≤ 0xBF := by
    rw [UInt8.le_iff_toNat_le, UInt8.le_iff_toNat_le, toNat_trail]
    simp only [UInt8.reduceToNat]
    omega
  rw [takeTrail, if_pos (by simpa using fits), toNat_trail, Nat.add_sub_cancel]

theorem takeTrail_succ_eq {bits count code : Nat} {bs rest : List UInt8}
    (h : takeTrail bits (count + 1) bs = (some code, rest)) :
    ∃ x more, x < 64 ∧ bs = trail x :: more ∧
      takeTrail (bits * 64 + x) count more = (some code, rest) := by
  cases bs with
  | nil => cases h
  | cons b more =>
    rw [takeTrail] at h
    split at h
    · rename_i fits
      simp only [Bool.and_eq_true, decide_eq_true_eq, UInt8.le_iff_toNat_le,
        UInt8.reduceToNat] at fits
      exact ⟨b.toNat - 0x80, more, by omega, by rw [trail_of_toNat fits.1 fits.2], h⟩
    · cases h

/-! ### First bytes -/

/-- The byte is the first one of a character of several bytes: `bits` are its own bits, the second
byte lies between the bounds, and the number of bytes after that is given last. -/
inductive Leads (b : UInt8) (bits : Nat) (lo hi : UInt8) : Nat → Prop
  | two (high : 2 ≤ bits) (low : bits ≤ 31) (spelled : b.toNat = 0xC0 + bits)
      (least : lo.toNat = 0x80) (greatest : hi.toNat = 0xBF) : Leads b bits lo hi 0
  | three (low : bits ≤ 15) (spelled : b.toNat = 0xE0 + bits)
      (least : lo.toNat = if bits = 0 then 0xA0 else 0x80)
      (greatest : hi.toNat = if bits = 13 then 0x9F else 0xBF) : Leads b bits lo hi 1
  | four (low : bits ≤ 4) (spelled : b.toNat = 0xF0 + bits)
      (least : lo.toNat = if bits = 0 then 0x90 else 0x80)
      (greatest : hi.toNat = if bits = 4 then 0x8F else 0xBF) : Leads b bits lo hi 2

theorem leads_of_leadByte? {b lo hi : UInt8} {bits count : Nat}
    (h : leadByte? b = some (bits, lo, hi, count)) : Leads b bits lo hi count := by
  unfold leadByte? at h
  simp only [Bool.and_eq_true, decide_eq_true_eq, beq_iff_eq] at h
  split at h
  · simp only [Option.some.injEq, Prod.mk.injEq] at h
    obtain ⟨rfl, rfl, rfl, rfl⟩ := h
    exact .two (by omega) (by omega) (by omega) rfl rfl
  split at h
  · simp only [Option.some.injEq, Prod.mk.injEq] at h
    obtain ⟨rfl, rfl, rfl, rfl⟩ := h
    exact .three (by omega) (by omega) rfl rfl
  split at h
  · simp only [Option.some.injEq, Prod.mk.injEq] at h
    obtain ⟨rfl, rfl, rfl, rfl⟩ := h
    exact .three (by omega) (by omega) rfl rfl
  split at h
  · simp only [Option.some.injEq, Prod.mk.injEq] at h
    obtain ⟨rfl, rfl, rfl, rfl⟩ := h
    exact .three (by omega) (by omega) (by rw [if_neg (by omega)]; rfl)
      (by rw [if_neg (by omega)]; rfl)
  split at h
  · simp only [Option.some.injEq, Prod.mk.injEq] at h
    obtain ⟨rfl, rfl, rfl, rfl⟩ := h
    exact .four (by omega) (by omega) rfl rfl
  split at h
  · simp only [Option.some.injEq, Prod.mk.injEq] at h
    obtain ⟨rfl, rfl, rfl, rfl⟩ := h
    exact .four (by omega) (by omega) (by rw [if_neg (by omega)]; rfl)
      (by rw [if_neg (by omega)]; rfl)
  split at h
  · simp only [Option.some.injEq, Prod.mk.injEq] at h
    obtain ⟨rfl, rfl, rfl, rfl⟩ := h
    exact .four (by omega) (by omega) rfl rfl
  · cases h

theorem leadByte?_two {bits : Nat} (high : 2 ≤ bits) (low : bits ≤ 31) :
    leadByte? (UInt8.ofNat (bits + 192)) = some (bits, 0x80, 0xBF, 0) := by
  have all : ∀ n < 30, leadByte? (UInt8.ofNat (n + 2 + 192)) = some (n + 2, 0x80, 0xBF, 0) := by
    decide
  have known := all (bits - 2) (by omega)
  rwa [Nat.sub_add_cancel high] at known

theorem leadByte?_three {bits : Nat} (low : bits ≤ 15) :
    leadByte? (UInt8.ofNat (bits + 224)) =
      some (bits, if bits = 0 then 0xA0 else 0x80, if bits = 13 then 0x9F else 0xBF, 1) := by
  have all : ∀ n < 16, leadByte? (UInt8.ofNat (n + 224)) =
      some (n, if n = 0 then 0xA0 else 0x80, if n = 13 then 0x9F else 0xBF, 1) := by decide
  exact all bits (by omega)

theorem leadByte?_four {bits : Nat} (low : bits ≤ 4) :
    leadByte? (UInt8.ofNat (bits + 240)) =
      some (bits, if bits = 0 then 0x90 else 0x80, if bits = 4 then 0x8F else 0xBF, 2) := by
  have all : ∀ n < 5, leadByte? (UInt8.ofNat (n + 240)) =
      some (n, if n = 0 then 0x90 else 0x80, if n = 4 then 0x8F else 0xBF, 2) := by decide
  exact all bits (by omega)

/-! ### Characters -/

theorem toNat_ofNat_of_valid {n : Nat} (h : n.isValidChar) : (Char.ofNat n).toNat = n := by
  rw [Char.ofNat, dif_pos h]
  rfl

theorem utf8EncodeChar_one {n : Nat} (h : n ≤ 127) :
    String.utf8EncodeChar (Char.ofNat n) = [UInt8.ofNat n] := by
  have same : (Char.ofNat n).val.toNat = n := toNat_ofNat_of_valid (Or.inl (by omega))
  simp only [String.utf8EncodeChar, same]
  rw [if_pos h]

theorem utf8EncodeChar_two {bits x : Nat} (high : 2 ≤ bits) (low : bits ≤ 31) (hx : x < 64) :
    String.utf8EncodeChar (Char.ofNat (bits * 64 + x)) = [UInt8.ofNat (bits + 192), trail x] := by
  have same : (Char.ofNat (bits * 64 + x)).val.toNat = bits * 64 + x :=
    toNat_ofNat_of_valid (Or.inl (by omega))
  have first : (bits * 64 + x) / 64 % 32 = bits := by omega
  have second : (bits * 64 + x) % 64 = x % 64 := by omega
  simp only [String.utf8EncodeChar, same]
  rw [if_neg (by omega), if_pos (by omega), first, second, trail]

theorem utf8EncodeChar_three {bits x y : Nat} (low : bits ≤ 15) (hx : x < 64) (hy : y < 64)
    (long : bits = 0 → 32 ≤ x) (surrogate : bits = 13 → x < 32) :
    String.utf8EncodeChar (Char.ofNat ((bits * 64 + x) * 64 + y)) =
      [UInt8.ofNat (bits + 224), trail x, trail y] := by
  have valid : ((bits * 64 + x) * 64 + y).isValidChar := by
    unfold Nat.isValidChar
    omega
  have same : (Char.ofNat ((bits * 64 + x) * 64 + y)).val.toNat = (bits * 64 + x) * 64 + y :=
    toNat_ofNat_of_valid valid
  have first : ((bits * 64 + x) * 64 + y) / 4096 % 16 = bits := by omega
  have second : ((bits * 64 + x) * 64 + y) / 64 % 64 = x % 64 := by omega
  have third : ((bits * 64 + x) * 64 + y) % 64 = y % 64 := by omega
  simp only [String.utf8EncodeChar, same]
  rw [if_neg (by omega), if_neg (by omega), if_pos (by omega), first, second, third, trail, trail]

theorem utf8EncodeChar_four {bits x y z : Nat} (low : bits ≤ 4) (hx : x < 64) (hy : y < 64)
    (hz : z < 64) (long : bits = 0 → 16 ≤ x) (last : bits = 4 → x < 16) :
    String.utf8EncodeChar (Char.ofNat (((bits * 64 + x) * 64 + y) * 64 + z)) =
      [UInt8.ofNat (bits + 240), trail x, trail y, trail z] := by
  have valid : (((bits * 64 + x) * 64 + y) * 64 + z).isValidChar := by
    unfold Nat.isValidChar
    omega
  have same : (Char.ofNat (((bits * 64 + x) * 64 + y) * 64 + z)).val.toNat =
      ((bits * 64 + x) * 64 + y) * 64 + z := toNat_ofNat_of_valid valid
  have first : (((bits * 64 + x) * 64 + y) * 64 + z) / 262144 % 8 = bits := by omega
  have second : (((bits * 64 + x) * 64 + y) * 64 + z) / 4096 % 64 = x % 64 := by omega
  have third : (((bits * 64 + x) * 64 + y) * 64 + z) / 64 % 64 = y % 64 := by omega
  have fourth : (((bits * 64 + x) * 64 + y) * 64 + z) % 64 = z % 64 := by omega
  simp only [String.utf8EncodeChar, same]
  rw [if_neg (by omega), if_neg (by omega), if_neg (by omega), first, second, third, fourth, trail,
    trail, trail]

/-- A character is written in one of four ways. -/
theorem utf8EncodeChar_cases (c : Char) :
    (∃ n ≤ 127, c = Char.ofNat n) ∨
    (∃ bits x, 2 ≤ bits ∧ bits ≤ 31 ∧ x < 64 ∧ c = Char.ofNat (bits * 64 + x)) ∨
    (∃ bits x y, bits ≤ 15 ∧ x < 64 ∧ y < 64 ∧ (bits = 0 → 32 ≤ x) ∧ (bits = 13 → x < 32) ∧
      c = Char.ofNat ((bits * 64 + x) * 64 + y)) ∨
    ∃ bits x y z, bits ≤ 4 ∧ x < 64 ∧ y < 64 ∧ z < 64 ∧ (bits = 0 → 16 ≤ x) ∧
      (bits = 4 → x < 16) ∧ c = Char.ofNat (((bits * 64 + x) * 64 + y) * 64 + z) := by
  have valid : c.toNat < 55296 ∨ 57343 < c.toNat ∧ c.toNat < 1114112 := c.valid
  rw [← Char.ofNat_toNat c]
  generalize c.toNat = n at valid
  by_cases one : n ≤ 127
  · exact Or.inl ⟨n, one, rfl⟩
  by_cases two : n ≤ 2047
  · refine Or.inr (Or.inl ⟨n / 64, n % 64, by omega, by omega, by omega, ?_⟩)
    congr 1
    omega
  by_cases three : n ≤ 65535
  · refine Or.inr (Or.inr (Or.inl ⟨n / 4096, n / 64 % 64, n % 64, by omega, by omega, by omega,
      by omega, by omega, ?_⟩))
    congr 1
    omega
  · refine Or.inr (Or.inr (Or.inr ⟨n / 262144, n / 4096 % 64, n / 64 % 64, n % 64, by omega,
      by omega, by omega, by omega, by omega, by omega, ?_⟩))
    congr 1
    omega

/-! ### Reading a character -/

theorem not_lt_of_lead {b : UInt8} (h : 0x80 ≤ b.toNat) : ¬ b < 0x80 := by
  rw [UInt8.lt_iff_toNat_lt]
  simpa using h

theorem decodeFrom_lead {b lo hi : UInt8} {bits count x : Nat} {more : List UInt8}
    (high : 0x80 ≤ b.toNat) (lead : leadByte? b = some (bits, lo, hi, count))
    (least : lo.toNat ≤ x % 64 + 128) (greatest : x % 64 + 128 ≤ hi.toNat) :
    decodeFrom b (trail x :: more) =
      ((takeTrail (bits * 64 + x % 64) count more).1.map Char.ofNat,
        (takeTrail (bits * 64 + x % 64) count more).2) := by
  have fits : (decide (lo ≤ trail x) && decide (trail x ≤ hi)) = true := by
    simpa [UInt8.le_iff_toNat_le, toNat_trail] using ⟨least, greatest⟩
  unfold decodeFrom
  rw [if_neg (not_lt_of_lead high), lead]
  simp only [fits, if_true, toNat_trail, Nat.add_sub_cancel]

theorem decodeFrom_one {n : Nat} (small : n ≤ 127) (rest : List UInt8) :
    decodeFrom (UInt8.ofNat n) rest = (some (Char.ofNat n), rest) := by
  have byte : (UInt8.ofNat n).toNat = n := UInt8.toNat_ofNat_of_lt' (by omega : n < 256)
  have short : UInt8.ofNat n < 0x80 := by
    rw [UInt8.lt_iff_toNat_lt, byte]
    exact Nat.lt_succ_of_le small
  unfold decodeFrom
  rw [if_pos short, byte]

theorem decodeFrom_two {bits x : Nat} (high : 2 ≤ bits) (low : bits ≤ 31) (hx : x < 64)
    (rest : List UInt8) :
    decodeFrom (UInt8.ofNat (bits + 192)) (trail x :: rest) =
      (some (Char.ofNat (bits * 64 + x)), rest) := by
  have byte : (UInt8.ofNat (bits + 192)).toNat = bits + 192 :=
    UInt8.toNat_ofNat_of_lt' (by omega : bits + 192 < 256)
  rw [decodeFrom_lead (by omega) (leadByte?_two high low) (by show 0x80 ≤ _; omega)
    (by show _ ≤ 0xBF; omega), Nat.mod_eq_of_lt hx]
  rfl

theorem decodeFrom_three {bits x y : Nat} (low : bits ≤ 15) (hx : x < 64) (hy : y < 64)
    (long : bits = 0 → 32 ≤ x) (surrogate : bits = 13 → x < 32) (rest : List UInt8) :
    decodeFrom (UInt8.ofNat (bits + 224)) (trail x :: trail y :: rest) =
      (some (Char.ofNat ((bits * 64 + x) * 64 + y)), rest) := by
  have byte : (UInt8.ofNat (bits + 224)).toNat = bits + 224 :=
    UInt8.toNat_ofNat_of_lt' (by omega : bits + 224 < 256)
  -- the bounds of the second byte keep out shorter forms and surrogates
  have least : (if bits = 0 then 0xA0 else 0x80 : UInt8).toNat ≤ x % 64 + 128 := by
    split
    · show 0xA0 ≤ _
      omega
    · show 0x80 ≤ _
      omega
  have greatest : x % 64 + 128 ≤ (if bits = 13 then 0x9F else 0xBF : UInt8).toNat := by
    split
    · show _ ≤ 0x9F
      omega
    · show _ ≤ 0xBF
      omega
  rw [decodeFrom_lead (by omega) (leadByte?_three low) least greatest, takeTrail_trail,
    Nat.mod_eq_of_lt hx, Nat.mod_eq_of_lt hy]
  rfl

theorem decodeFrom_four {bits x y z : Nat} (low : bits ≤ 4) (hx : x < 64) (hy : y < 64)
    (hz : z < 64) (long : bits = 0 → 16 ≤ x) (last : bits = 4 → x < 16) (rest : List UInt8) :
    decodeFrom (UInt8.ofNat (bits + 240)) (trail x :: trail y :: trail z :: rest) =
      (some (Char.ofNat (((bits * 64 + x) * 64 + y) * 64 + z)), rest) := by
  have byte : (UInt8.ofNat (bits + 240)).toNat = bits + 240 :=
    UInt8.toNat_ofNat_of_lt' (by omega : bits + 240 < 256)
  -- the bounds of the second byte keep out shorter forms and numbers past the last character
  have least : (if bits = 0 then 0x90 else 0x80 : UInt8).toNat ≤ x % 64 + 128 := by
    split
    · show 0x90 ≤ _
      omega
    · show 0x80 ≤ _
      omega
  have greatest : x % 64 + 128 ≤ (if bits = 4 then 0x8F else 0xBF : UInt8).toNat := by
    split
    · show _ ≤ 0x8F
      omega
    · show _ ≤ 0xBF
      omega
  rw [decodeFrom_lead (by omega) (leadByte?_four low) least greatest, takeTrail_trail,
    takeTrail_trail, Nat.mod_eq_of_lt hx, Nat.mod_eq_of_lt hy, Nat.mod_eq_of_lt hz]
  rfl

/-- What is written for a character is read as the character. -/
theorem decodeFrom_written (c : Char) (rest : List UInt8) :
    ∃ b bs, String.utf8EncodeChar c = b :: bs ∧ decodeFrom b (bs ++ rest) = (some c, rest) := by
  rcases utf8EncodeChar_cases c with ⟨n, small, rfl⟩ | ⟨bits, x, high, low, hx, rfl⟩ |
    ⟨bits, x, y, low, hx, hy, long, surrogate, rfl⟩ |
    ⟨bits, x, y, z, low, hx, hy, hz, long, last, rfl⟩
  · exact ⟨_, _, utf8EncodeChar_one small, decodeFrom_one small rest⟩
  · exact ⟨_, _, utf8EncodeChar_two high low hx, decodeFrom_two high low hx rest⟩
  · exact ⟨_, _, utf8EncodeChar_three low hx hy long surrogate,
      decodeFrom_three low hx hy long surrogate rest⟩
  · exact ⟨_, _, utf8EncodeChar_four low hx hy hz long last,
      decodeFrom_four low hx hy hz long last rest⟩

theorem lead_of_toNat {b : UInt8} {n : Nat} (h : b.toNat = n) : b = UInt8.ofNat n := by
  rw [← h, UInt8.ofNat_toNat]

/-- The trailing bytes after the first two complete what is written for the character. -/
theorem written_of_takeTrail {b lo hi : UInt8} {bits count x code : Nat} {more rest : List UInt8}
    (leads : Leads b bits lo hi count) (hx : x < 64) (least : lo.toNat ≤ x + 128)
    (greatest : x + 128 ≤ hi.toNat)
    (taken : takeTrail (bits * 64 + x) count more = (some code, rest)) :
    b :: trail x :: more = String.utf8EncodeChar (Char.ofNat code) ++ rest := by
  cases leads with
  | two high low spelled _ _ =>
    cases taken
    rw [utf8EncodeChar_two high low hx, ← lead_of_toNat (by omega : b.toNat = bits + 192)]
    rfl
  | three low spelled least' greatest' =>
    obtain ⟨y, after, hy, rfl, third⟩ := takeTrail_succ_eq taken
    cases third
    have long : bits = 0 → 32 ≤ x := by
      intro none
      rw [if_pos none] at least'
      omega
    have surrogate : bits = 13 → x < 32 := by
      intro reserved
      rw [if_pos reserved] at greatest'
      omega
    rw [utf8EncodeChar_three low hx hy long surrogate,
      ← lead_of_toNat (by omega : b.toNat = bits + 224)]
    rfl
  | four low spelled least' greatest' =>
    obtain ⟨y, after, hy, rfl, third⟩ := takeTrail_succ_eq taken
    obtain ⟨z, after, hz, rfl, fourth⟩ := takeTrail_succ_eq third
    cases fourth
    have long : bits = 0 → 16 ≤ x := by
      intro none
      rw [if_pos none] at least'
      omega
    have last : bits = 4 → x < 16 := by
      intro highest
      rw [if_pos highest] at greatest'
      omega
    rw [utf8EncodeChar_four low hx hy hz long last,
      ← lead_of_toNat (by omega : b.toNat = bits + 240)]
    rfl

theorem Leads.bounds {b lo hi : UInt8} {bits count : Nat} (h : Leads b bits lo hi count) :
    0x80 ≤ lo.toNat ∧ hi.toNat ≤ 0xBF := by
  cases h with
  | two _ _ _ least greatest => omega
  | three _ _ least greatest => split at least <;> split at greatest <;> omega
  | four _ _ least greatest => split at least <;> split at greatest <;> omega

/-- What is read as a character is what is written for it. -/
theorem written_of_decodeFrom {b : UInt8} {bs rest : List UInt8} {c : Char}
    (h : decodeFrom b bs = (some c, rest)) : b :: bs = String.utf8EncodeChar c ++ rest := by
  unfold decodeFrom at h
  split at h
  · rename_i short
    rw [UInt8.lt_iff_toNat_lt] at short
    simp only [UInt8.reduceToNat] at short
    simp only [Prod.mk.injEq, Option.some.injEq] at h
    obtain ⟨rfl, rfl⟩ := h
    rw [utf8EncodeChar_one (by omega), UInt8.ofNat_toNat, List.singleton_append]
  · split at h
    · rename_i bits lo hi count second more lead
      have leads := leads_of_leadByte? lead
      split at h
      · rename_i fits
        simp only [Bool.and_eq_true, decide_eq_true_eq, UInt8.le_iff_toNat_le] at fits
        have bounds := leads.bounds
        obtain ⟨char, rfl⟩ := Prod.mk.inj h
        obtain ⟨code, hcode, rfl⟩ := Option.map_eq_some_iff.mp char
        have taken : takeTrail (bits * 64 + (second.toNat - 0x80)) count more =
            (some code, (takeTrail (bits * 64 + (second.toNat - 0x80)) count more).2) := by
          rw [← hcode]
        have written := written_of_takeTrail leads (by omega) (by omega) (by omega) taken
        rwa [trail_of_toNat (by omega) (by omega)] at written
      · cases h
    · cases h

/-! ### Reading a text -/

theorem encode_cons (c : Char) (cs : List Char) :
    encode (c :: cs) = String.utf8EncodeChar c ++ encode cs := rfl

theorem decodeOnto_encode (fault : Option Char) (done cs : List Char) :
    decodeOnto fault done (encode cs) = some (done.reverse ++ cs) := by
  induction cs generalizing done with
  | nil =>
    rw [encode, List.flatMap_nil, decodeOnto, List.append_nil]
  | cons c cs ih =>
    obtain ⟨b, bs, written, read⟩ := decodeFrom_written c (encode cs)
    rw [encode_cons, written, List.cons_append, decodeOnto]
    split
    · rename_i same
      rw [read] at same
      cases same
      rw [ih, List.reverse_cons, List.append_assoc, List.singleton_append]
    · rename_i same
      rw [read] at same
      cases same

theorem encode_of_decodeOnto {done cs : List Char} {bs : List UInt8}
    (h : decodeOnto none done bs = some cs) :
    ∃ tail, cs = done.reverse ++ tail ∧ bs = encode tail := by
  -- a character takes up to four bytes, so the induction is on the number of those left
  induction hn : bs.length using Nat.strongRecOn generalizing done bs with
  | ind n ih =>
    cases bs with
    | nil =>
      rw [decodeOnto] at h
      cases h
      exact ⟨[], (List.append_nil _).symm, rfl⟩
    | cons b bs =>
      rw [decodeOnto] at h
      split at h
      · rename_i c rest read
        have shorter : rest.length < n := by
          have := decodeFrom_length b bs
          rw [read] at this
          rw [← hn]
          exact Nat.lt_succ_of_le this
        obtain ⟨tail, rfl, rfl⟩ := ih _ shorter h rfl
        exact ⟨c :: tail, by simp, written_of_decodeFrom read⟩
      · cases h

/-- Bytes are read as a text just when they are what is written for it. -/
theorem decode?_eq_some_iff {bs : List UInt8} {cs : List Char} :
    decode? bs = some cs ↔ bs = encode cs := by
  constructor
  · intro h
    obtain ⟨tail, rfl, spelled⟩ := encode_of_decodeOnto h
    exact spelled
  · rintro rfl
    exact decodeOnto_encode none [] cs

/-! ### Reading with faults -/

theorem decodeOnto_some_cons (fault : Char) (done : List Char) (b : UInt8) (bs : List UInt8) :
    decodeOnto (some fault) done (b :: bs) =
      decodeOnto (some fault) ((decodeFrom b bs).1.getD fault :: done) (decodeFrom b bs).2 := by
  rw [decodeOnto]
  split
  · rename_i read
    simp only [read, Option.getD_some]
  · rename_i read
    simp only [read, Option.getD_none]

/-- What has been read before is kept in front of what is read in the bytes. -/
theorem decodeOnto_some (fault : Char) (done : List Char) (bs : List UInt8) :
    ∃ cs, decodeOnto (some fault) [] bs = some cs ∧
      decodeOnto (some fault) done bs = some (done.reverse ++ cs) := by
  induction hn : bs.length using Nat.strongRecOn generalizing done bs with
  | ind n ih =>
    cases bs with
    | nil =>
      rw [decodeOnto, decodeOnto]
      exact ⟨[], rfl, by rw [List.append_nil]⟩
    | cons b bs =>
      have shorter : (decodeFrom b bs).2.length < n := by
        have length := decodeFrom_length b bs
        rw [List.length_cons] at hn
        omega
      obtain ⟨cs, read, first⟩ := ih _ shorter [(decodeFrom b bs).1.getD fault] _ rfl
      obtain ⟨cs', read', onto⟩ := ih _ shorter ((decodeFrom b bs).1.getD fault :: done) _ rfl
      obtain rfl : cs = cs' := Option.some.inj (read.symm.trans read')
      refine ⟨_, by rw [decodeOnto_some_cons, first], ?_⟩
      rw [decodeOnto_some_cons, onto]
      simp

theorem decodeLossy_nil : decodeLossy [] = [] := by
  rw [decodeLossy, decodeOnto]
  rfl

/-- Bytes are read one character or fault after the other. -/
theorem decodeLossy_cons (b : UInt8) (bs : List UInt8) :
    decodeLossy (b :: bs) =
      (decodeFrom b bs).1.getD (Char.ofNat 0xFFFD) :: decodeLossy (decodeFrom b bs).2 := by
  obtain ⟨cs, read, onto⟩ := decodeOnto_some (Char.ofNat 0xFFFD)
    [(decodeFrom b bs).1.getD (Char.ofNat 0xFFFD)] (decodeFrom b bs).2
  rw [decodeLossy, decodeLossy, decodeOnto_some_cons, onto, read]
  rfl

/-! ### Reading up to a line feed -/

theorem takeTrail_feed (bits count : Nat) (bs more : List UInt8) :
    takeTrail bits count (bs ++ 0x0A :: more) =
      ((takeTrail bits count bs).1, (takeTrail bits count bs).2 ++ 0x0A :: more) := by
  fun_induction takeTrail bits count bs with
  | case1 => rw [takeTrail]
  | case2 bits count b bs fits ih => rw [List.cons_append, takeTrail, if_pos fits, ih]
  | case3 bits count b bs fits => rw [List.cons_append, takeTrail, if_neg fits]
  | case4 bits count => rw [List.nil_append, takeTrail, if_neg (by decide)]

/-- A line feed belongs to no character of several bytes. -/
theorem decodeFrom_feed (b : UInt8) (bs more : List UInt8) :
    decodeFrom b (bs ++ 0x0A :: more) =
      ((decodeFrom b bs).1, (decodeFrom b bs).2 ++ 0x0A :: more) := by
  unfold decodeFrom
  by_cases short : b < 0x80
  · rw [if_pos short, if_pos short]
  · rw [if_neg short, if_neg short]
    cases lead : leadByte? b with
    | none => rfl
    | some found =>
      obtain ⟨bits, lo, hi, count⟩ := found
      cases bs with
      | nil =>
        have low : ¬ lo ≤ 0x0A := by
          have least := (leads_of_leadByte? lead).bounds.1
          rw [UInt8.le_iff_toNat_le]
          simp only [UInt8.reduceToNat]
          omega
        simp [low]
      | cons c bs =>
        rw [List.cons_append]
        by_cases fits : (decide (lo ≤ c) && decide (c ≤ hi)) = true
        · simp only [fits, if_true, takeTrail_feed]
        · simp only [fits]
          rfl

/-- A line feed parts what is read before it from what is read after it. -/
theorem decodeLossy_append_feed (bs more : List UInt8) :
    decodeLossy (bs ++ 0x0A :: more) = decodeLossy bs ++ '\n' :: decodeLossy more := by
  induction hn : bs.length using Nat.strongRecOn generalizing bs with
  | ind n ih =>
    cases bs with
    | nil => rw [decodeLossy_nil]; exact decodeLossy_cons 0x0A more
    | cons b bs =>
      have shorter : (decodeFrom b bs).2.length < n := by
        have length := decodeFrom_length b bs
        rw [List.length_cons] at hn
        omega
      rw [List.cons_append, decodeLossy_cons, decodeFrom_feed, decodeLossy_cons,
        ih _ shorter _ rfl, List.cons_append]

end EnvCensus.Text
