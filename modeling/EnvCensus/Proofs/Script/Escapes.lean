import EnvCensus.Proofs.Script
import Mathlib.Data.List.TakeWhile

/-!
# Escapes in literals

The body of a literal is read from left to right: a backslash and what it
escapes, or a character that stands for itself. An escape by code has its digits
between braces, any number of them, or a fixed number of digits. The body has a
value just when no escape in it has a code beyond the last code point; else the
decoding fails, and tells the first such code.
-/

namespace EnvCensus.Script

variable {cs body written rest : List Char} {code n : Nat} {codes : List Nat}

/-! ### Escapes by code -/

/-- What stands behind a backslash is an escape by this code. -/
inductive CodeEscape : List Char → Nat → Prop
  | braced {digits : List Char} (nonempty : digits ≠ [])
      (hex : ∀ d ∈ digits, Text.isHexDigit d = true) :
      CodeEscape ('u' :: '{' :: digits ++ ['}']) (Text.hexNumber digits)
  | four {digits : List Char} (length : digits.length = 4)
      (hex : ∀ d ∈ digits, Text.isHexDigit d = true) :
      CodeEscape ('u' :: digits) (Text.hexNumber digits)
  | two {digits : List Char} (length : digits.length = 2)
      (hex : ∀ d ∈ digits, Text.isHexDigit d = true) :
      CodeEscape ('x' :: digits) (Text.hexNumber digits)

/-- Digits do not begin with a brace. -/
theorem head_ne_brace {digits : List Char} (hex : ∀ d ∈ digits, Text.isHexDigit d = true)
    (nonempty : digits ≠ []) (more : List Char) : digits ++ rest = '{' :: more → False := by
  intro h
  cases digits with
  | nil => exact nonempty rfl
  | cons d digits =>
    rw [List.cons_append, List.cons.injEq] at h
    have digit := hex d List.mem_cons_self
    rw [h.1] at digit
    exact absurd digit (by decide)

theorem codeEscape?_append (h : CodeEscape written code) (rest : List Char) :
    codeEscape? (written ++ rest) = some (code, written.length) := by
  cases h with
  | @braced digits nonempty hex =>
    have front : (digits ++ '}' :: rest).takeWhile Text.isHexDigit = digits := by
      rw [List.takeWhile_append_of_pos hex, List.takeWhile_cons_of_neg (by decide),
        List.append_nil]
    simp [codeEscape?, front, nonempty]
  | @four digits length hex =>
    have nonempty : digits ≠ [] := by
      rintro rfl
      cases length
    rw [List.cons_append, codeEscape?.eq_2 _ (head_ne_brace hex nonempty)]
    have front : (digits ++ rest).take 4 = digits := by rw [← length, List.take_left]
    simp [front, length, List.all_eq_true.mpr hex]
  | @two digits length hex =>
    have front : (digits ++ rest).take 2 = digits := by rw [← length, List.take_left]
    simp [codeEscape?, front, length, List.all_eq_true.mpr hex]

theorem codeEscape?_eq_some :
    codeEscape? cs = some (code, n) ↔
      ∃ written rest, cs = written ++ rest ∧ CodeEscape written code ∧ written.length = n := by
  constructor
  · intro h
    unfold codeEscape? at h
    split at h
    · rename_i text
      obtain ⟨cond, h⟩ := Option.ite_none_right_eq_some.mp h
      rw [Bool.and_eq_true, decide_eq_true_eq, beq_iff_eq, List.head?_eq_some_iff] at cond
      obtain ⟨nonempty, after, closed⟩ := cond
      cases h
      have parts : text.takeWhile Text.isHexDigit ++ '}' :: after = text := by
        rw [← closed]
        exact List.prefix_iff_eq_append.mp (List.takeWhile_prefix _)
      refine ⟨'u' :: '{' :: text.takeWhile Text.isHexDigit ++ ['}'], after, ?_,
        .braced nonempty fun d hd => List.mem_takeWhile_imp hd, by simp⟩
      simp [parts]
    · rename_i text _
      obtain ⟨cond, h⟩ := Option.ite_none_right_eq_some.mp h
      rw [Bool.and_eq_true, beq_iff_eq, List.all_eq_true] at cond
      cases h
      exact ⟨'u' :: text.take 4, text.drop 4, by simp, .four cond.1 cond.2, by simp [cond.1]⟩
    · rename_i text
      obtain ⟨cond, h⟩ := Option.ite_none_right_eq_some.mp h
      rw [Bool.and_eq_true, beq_iff_eq, List.all_eq_true] at cond
      cases h
      exact ⟨'x' :: text.take 2, text.drop 2, by simp, .two cond.1 cond.2, by simp [cond.1]⟩
    · cases h
  · rintro ⟨written, rest, rfl, escape, rfl⟩
    exact codeEscape?_append escape rest

/-! ### Readings -/

/-- The body, read from left to right, has escapes by these codes. A backslash at the very end
stands for itself, and the end of a line that is escaped may be of two characters. -/
inductive CodesIn : List Char → List Nat → Prop
  | nil : CodesIn [] []
  | plain {c : Char} {rest : List Char} {codes : List Nat} (itself : c ≠ '\\' ∨ rest = [])
      (tail : CodesIn rest codes) : CodesIn (c :: rest) codes
  | code {written rest : List Char} {code : Nat} {codes : List Nat}
      (escape : CodeEscape written code) (tail : CodesIn rest codes) :
      CodesIn ('\\' :: (written ++ rest)) (code :: codes)
  | lineEnd {rest : List Char} {codes : List Nat} (tail : CodesIn rest codes) :
      CodesIn ('\\' :: '\r' :: '\n' :: rest) codes
  | other {c : Char} {rest : List Char} {codes : List Nat}
      (codeless : ∀ written code, CodeEscape written code → ¬ written <+: c :: rest)
      (single : c = '\r' → rest.head? ≠ some '\n') (tail : CodesIn rest codes) :
      CodesIn ('\\' :: c :: rest) codes

/-- Every body has a reading. -/
theorem exists_codesIn (body : List Char) : ∃ codes, CodesIn body codes := by
  -- an escape takes several characters at once, hence the induction on the length
  induction hn : body.length using Nat.strongRecOn generalizing body with
  | ind n ih =>
    have later : ∀ rest : List Char, rest.length < body.length → ∃ codes, CodesIn rest codes :=
      fun rest shorter => ih rest.length (hn ▸ shorter) rest rfl
    cases body with
    | nil => exact ⟨[], .nil⟩
    | cons c rest =>
      by_cases itself : c ≠ '\\' ∨ rest = []
      · obtain ⟨codes, tail⟩ := later rest (by simp)
        exact ⟨codes, .plain itself tail⟩
      · obtain ⟨escaped, nonempty⟩ := not_or.mp itself
        obtain rfl := not_ne_iff.mp escaped
        by_cases byCode : ∃ written code, CodeEscape written code ∧ written <+: rest
        · obtain ⟨written, code, escape, after, rfl⟩ := byCode
          obtain ⟨codes, tail⟩ := later after (by
            simp only [List.length_cons, List.length_append]
            omega)
          exact ⟨code :: codes, .code escape tail⟩
        · have codeless : ∀ written code, CodeEscape written code → ¬ written <+: rest :=
            fun written code escape front => byCode ⟨written, code, escape, front⟩
          cases rest with
          | nil => exact absurd rfl nonempty
          | cons d rest =>
            by_cases double : d = '\r' ∧ rest.head? = some '\n'
            · obtain ⟨rfl, feed⟩ := double
              obtain ⟨after, rfl⟩ := List.head?_eq_some_iff.mp feed
              obtain ⟨codes, tail⟩ := later after (by simp only [List.length_cons]; omega)
              exact ⟨codes, .lineEnd tail⟩
            · obtain ⟨codes, tail⟩ := later rest (by simp only [List.length_cons]; omega)
              exact ⟨codes, .other codeless (not_and.mp double) tail⟩

/-! ### Decoding -/

/-- Characters that belong to an escape are passed over. -/
theorem decodeFrom_eq_drop (skip : Nat) (cs : List Char) :
    decodeFrom skip cs = decodeFrom 0 (cs.drop skip) := by
  induction cs generalizing skip with
  | nil => simp [decodeFrom]
  | cons c cs ih =>
    cases skip with
    | zero => rfl
    | succ k => exact ih k

theorem decodeFrom_plain_cons {c : Char} (itself : c ≠ '\\' ∨ rest = []) :
    decodeFrom 0 (c :: rest) = (decodeFrom 0 rest).map (c :: ·) := by
  have unescaped : (c == '\\' && decide (rest ≠ [])) = false := by
    rcases itself with other | rfl
    · simp [other]
    · simp
  rw [decodeFrom, unescaped]
  cases decodeFrom 0 rest <;> rfl

theorem decodeFrom_escape (nonempty : rest ≠ []) : decodeFrom 0 ('\\' :: rest) =
    escapeValue rest >>= fun e => (decodeFrom 0 (rest.drop e.2)).map (e.1 ++ ·) := by
  have escaped : ('\\' == '\\' && decide (rest ≠ [])) = true := by simp [nonempty]
  rw [decodeFrom, if_pos escaped]
  cases escapeValue rest with
  | error e => rfl
  | ok e =>
    rw [ok_bind, ok_bind]
    simp only [decodeFrom_eq_drop e.2]
    cases decodeFrom 0 (rest.drop e.2) <;> rfl

/-! ### Codes that are too large -/

/-- The fault of a code that names no character: codes of more than 31 bits have one of their
own. -/
inductive EscapeFault.Tells : EscapeFault → Nat → Prop
  | codePoint {n : Nat} (beyond : 0x10FFFF < n) (word : n ≤ 0x7FFFFFFF) :
      Tells (.beyondCodePoints n) n
  | word {n : Nat} (beyond : 0x7FFFFFFF < n) : Tells (.beyondWord n) n

theorem EscapeFault.Tells.beyond {fault : EscapeFault} (h : fault.Tells code) :
    0x10FFFF < code := by
  cases h with
  | codePoint beyond word => exact beyond
  | word beyond => omega

theorem EscapeFault.Tells.unique {fault fault' : EscapeFault} (h : fault.Tells code)
    (h' : fault'.Tells code) : fault = fault' := by
  cases h with
  | codePoint beyond word =>
    cases h' with
    | codePoint => rfl
    | word beyond' => omega
  | word beyond =>
    cases h' with
    | codePoint beyond' word => omega
    | word => rfl

theorem charOfCode_ends (n : Nat) :
    Ends (fun fault => fault.Tells n) (fun _ => n ≤ 0x10FFFF) (charOfCode n) := by
  unfold charOfCode
  split
  · rename_i word
    exact .error (.word word)
  · split
    · rename_i word beyond
      exact .error (.codePoint beyond (Nat.le_of_not_lt word))
    · rename_i within
      exact .ok (Nat.le_of_not_lt within)

/-- The first of some codes that lies beyond the last code point. -/
def firstBeyond (codes : List Nat) : Option Nat := codes.find? fun n => decide (0x10FFFF < n)

theorem firstBeyond_eq_none : firstBeyond codes = none ↔ ∀ code ∈ codes, code ≤ 0x10FFFF := by
  simp [firstBeyond]

/-- Decoding a text with these codes ends as it must: it gives a value when none of them is too
large, and else tells the first one that is. -/
abbrev DecodesAs (codes : List Nat) (x : Except EscapeFault (List Char)) : Prop :=
  Ends (fun fault => ∃ code, firstBeyond codes = some code ∧ fault.Tells code)
    (fun _ => ∀ code ∈ codes, code ≤ 0x10FFFF) x

variable {x : Except EscapeFault (List Char)}

theorem DecodesAs.map_iff (f : List Char → List Char) :
    DecodesAs codes (x.map f) ↔ DecodesAs codes x := by
  refine ⟨fun h => ?_, fun h => h.map fun _ small => small⟩
  cases x with
  | ok value => exact .ok (h.result rfl)
  | error fault => exact .error (h.failure rfl)

theorem DecodesAs.cons (small : code ≤ 0x10FFFF) (h : DecodesAs codes x) :
    DecodesAs (code :: codes) x := by
  refine h.imp ?_ fun _ others => List.forall_mem_cons.mpr ⟨small, others⟩
  rintro fault ⟨first, found, tells⟩
  exact ⟨first, by simpa [firstBeyond, small] using found, tells⟩

theorem DecodesAs.beyond {fault : EscapeFault} (tells : fault.Tells code) :
    DecodesAs (code :: codes) (.error fault) :=
  .error ⟨code, by simp [firstBeyond, tells.beyond], tells⟩

theorem DecodesAs.ok_iff (h : DecodesAs codes x) :
    (∃ value, x = .ok value) ↔ ∀ code ∈ codes, code ≤ 0x10FFFF := by
  cases h with
  | ok small => exact iff_of_true ⟨_, rfl⟩ small
  | error failed =>
    obtain ⟨code, first, -⟩ := failed
    refine iff_of_false ?_ fun small => ?_
    · rintro ⟨value, h⟩
      cases h
    · rw [firstBeyond_eq_none.mpr small] at first
      cases first

theorem DecodesAs.error_iff {fault : EscapeFault} (h : DecodesAs codes x) :
    x = .error fault ↔ ∃ code, firstBeyond codes = some code ∧ fault.Tells code := by
  refine ⟨fun failed => h.failure failed, ?_⟩
  rintro ⟨code, first, tells⟩
  cases h with
  | ok small =>
    rw [firstBeyond_eq_none.mpr small] at first
    cases first
  | error failed =>
    obtain ⟨code', first', tells'⟩ := failed
    obtain rfl := Option.some_inj.mp (first.symm.trans first')
    rw [tells.unique tells']

theorem escapeValue_code (escape : CodeEscape written code) :
    escapeValue (written ++ rest) = (charOfCode code).map fun c => ([c], written.length) := by
  simp only [escapeValue, codeEscape?_append escape]

theorem decodeFrom_code (escape : CodeEscape written code)
    (tail : DecodesAs codes (decodeFrom 0 rest)) :
    DecodesAs (code :: codes) (decodeFrom 0 ('\\' :: (written ++ rest))) := by
  have nonempty : written ++ rest ≠ [] := by cases escape <;> simp
  rw [decodeFrom_escape nonempty, escapeValue_code escape]
  cases named : charOfCode code with
  | error fault => exact .beyond ((charOfCode_ends code).failure named)
  | ok c =>
    have small := (charOfCode_ends code).result named
    have value : ((.ok c : Except EscapeFault Char).map fun c => ([c], written.length)) =
      .ok ([c], written.length) := rfl
    rw [value, ok_bind, DecodesAs.map_iff, List.drop_left]
    exact tail.cons small

theorem codeEscape?_eq_none
    (codeless : ∀ written code, CodeEscape written code → ¬ written <+: cs) :
    codeEscape? cs = none := by
  cases found : codeEscape? cs with
  | none => rfl
  | some e =>
    obtain ⟨written, after, rfl, escape, -⟩ := codeEscape?_eq_some.mp found
    exact absurd (List.prefix_append written after) (codeless written e.1 escape)

theorem plainEscape_single {c : Char} (single : c = '\r' → rest.head? ≠ some '\n') :
    (plainEscape (c :: rest)).2 = 1 := by
  unfold plainEscape
  split
  · rename_i h
    cases h
  · rename_i h
    cases h
    exact absurd rfl (single rfl)
  · split <;> rfl

/-- A text is decoded as its escapes by code demand. -/
theorem decodesAs_of_codesIn (h : CodesIn body codes) : DecodesAs codes (decodeFrom 0 body) := by
  induction h with
  | nil => exact .ok (by simp)
  | plain itself tail ih =>
    rw [decodeFrom_plain_cons itself, DecodesAs.map_iff]
    exact ih
  | code escape tail ih => exact decodeFrom_code escape ih
  | @lineEnd rest codes tail ih =>
    have value : escapeValue ('\r' :: '\n' :: rest) = .ok ([], 2) := rfl
    rw [decodeFrom_escape (List.cons_ne_nil _ _), value, ok_bind, DecodesAs.map_iff]
    exact ih
  | @other c rest codes codeless single tail ih =>
    have one : (plainEscape (c :: rest)).2 = 1 := plainEscape_single single
    rw [decodeFrom_escape (List.cons_ne_nil _ _), escapeValue, codeEscape?_eq_none codeless]
    simp only [ok_bind, one, DecodesAs.map_iff, List.drop_succ_cons, List.drop_zero]
    exact ih

/-- Every body of a literal has a reading, and it has a value just when no escape in it has a code
beyond the last code point. It fails by the first such code, and by nothing else. -/
theorem decodeEscapes_ok_iff (body : List Char) :
    (∃ codes, CodesIn body codes) ∧ ∀ codes, CodesIn body codes →
      ((∃ value, decodeEscapes body = .ok value) ↔ ∀ code ∈ codes, code ≤ 0x10FFFF) ∧
      ∀ fault, decodeEscapes body = .error fault ↔
        ∃ code, firstBeyond codes = some code ∧ fault.Tells code := by
  refine ⟨exists_codesIn body, fun codes reading => ?_⟩
  have decodes : DecodesAs codes (decodeEscapes body) := decodesAs_of_codesIn reading
  exact ⟨decodes.ok_iff, fun _ => decodes.error_iff⟩

/-- A smiling face and a letter by their codes, and then two codes that are too large. -/
def largeCodes : List Char :=
  '\\' :: ("u\x7b1F600\x7d".toList ++ '\\' :: ("x41".toList ++ '-' ::
    '\\' :: ("u\x7b110000\x7d".toList ++ '\\' :: ("u\x7b80000000\x7d".toList ++ []))))

theorem codesIn_largeCodes : CodesIn largeCodes [0x1F600, 0x41, 0x110000, 0x80000000] := by
  have face : CodeEscape "u\x7b1F600\x7d".toList 0x1F600 :=
    @CodeEscape.braced "1F600".toList (by decide) (List.all_eq_true.mp (by decide))
  have letter : CodeEscape "x41".toList 0x41 :=
    @CodeEscape.two "41".toList rfl (List.all_eq_true.mp (by decide))
  have large : CodeEscape "u\x7b110000\x7d".toList 0x110000 :=
    @CodeEscape.braced "110000".toList (by decide) (List.all_eq_true.mp (by decide))
  have larger : CodeEscape "u\x7b80000000\x7d".toList 0x80000000 :=
    @CodeEscape.braced "80000000".toList (by decide) (List.all_eq_true.mp (by decide))
  exact .code face (.code letter (.plain (Or.inl (by decide)) (.code large (.code larger .nil))))

/-- Of two codes that are too large, the first one is told. -/
theorem decodeEscapes_largeCodes : CodesIn largeCodes [0x1F600, 0x41, 0x110000, 0x80000000] ∧
    ¬ (∃ value, decodeEscapes largeCodes = .ok value) ∧
    decodeEscapes largeCodes = .error (.beyondCodePoints 0x110000) := by
  obtain ⟨decodes, fails⟩ := (decodeEscapes_ok_iff largeCodes).2 _ codesIn_largeCodes
  refine ⟨codesIn_largeCodes, ?_, ?_⟩
  · rw [decodes]
    decide
  · exact (fails _).mpr ⟨0x110000, rfl, .codePoint (by decide) (by decide)⟩

/-- The code that follows the last code point, between braces, has no value. -/
theorem beyondEscape_not_decoded :
    ¬ ∃ value, decodeEscapes "\\u\x7b110000\x7d".toList = .ok value := by
  have fails : decodeEscapes "\\u\x7b110000\x7d".toList = .error (.beyondCodePoints 0x110000) := by
    decide
  rintro ⟨value, h⟩
  cases fails.symm.trans h

end EnvCensus.Script
