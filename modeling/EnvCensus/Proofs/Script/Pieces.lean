import EnvCensus.Proofs.Script.Escapes

/-!
# Pieces of a literal

The body of a literal may be put together from pieces: characters that stand for
themselves, escapes by code, escaped ends of lines and other escaped characters.
However the pieces follow one another, the body is taken apart at the same
places again, so its value is the values of the pieces run together. One pair of
pieces alone reads differently together: an escaped carriage return takes a line
feed behind it along.
-/

namespace EnvCensus.Script

/-- Ends of lines. -/
inductive LineEnd where
  | lineFeed
  | carriageReturn
  | both
  | lineSeparator
  | paragraphSeparator

def LineEnd.text : LineEnd → List Char
  | lineFeed => ['\n']
  | carriageReturn => ['\r']
  | both => ['\r', '\n']
  | lineSeparator => ['\u2028']
  | paragraphSeparator => ['\u2029']

/-- The character that an escaped character stands for: a control for seven of them, else itself. -/
def controlOr : Char → Char
  | 'n' => '\n'
  | 't' => '\t'
  | 'r' => '\r'
  | 'b' => '\x08'
  | 'f' => '\x0c'
  | 'v' => '\x0b'
  | '0' => '\x00'
  | c => c

/-- A piece of a literal's body. The code of an escape is that of a character, so it is neither too
large nor half of a code point. -/
inductive Piece where
  | itself (c : Char) (unescaped : c ≠ '\\')
  | code (written : List Char) (n : Nat) (escape : CodeEscape written n) (character : n.isValidChar)
  | lineEnd (e : LineEnd)
  | escaped (c : Char) (other : c ∉ ['u', 'x', '\n', '\r', '\u2028', '\u2029'])

namespace Piece

/-- How the piece is written. -/
def text : Piece → List Char
  | itself c _ => [c]
  | code written _ _ _ => '\\' :: written
  | lineEnd e => '\\' :: e.text
  | escaped c _ => ['\\', c]

/-- What the piece stands for. -/
def value : Piece → List Char
  | itself c _ => [c]
  | code _ n _ _ => [Char.ofNat n]
  | lineEnd _ => []
  | escaped c _ => [controlOr c]

end Piece

variable {rest : List Char}

/-! ### One piece -/

theorem charOfCode_of_isValidChar {n : Nat} (character : n.isValidChar) :
    charOfCode n = .ok (Char.ofNat n) := by
  unfold Nat.isValidChar at character
  have word : ¬ n > 0x7FFFFFFF := by omega
  have within : ¬ n > 0x10FFFF := by omega
  have whole : (Text.isHighHalf n || Text.isLowHalf n) = false := by
    simp only [Text.isHighHalf, Text.isLowHalf, Bool.or_eq_false_iff, Bool.and_eq_false_iff,
      decide_eq_false_iff_not]
    omega
  rw [charOfCode, if_neg word, if_neg within, Text.charOfUnit, whole]
  rfl

theorem decodeFrom_character {written : List Char} {n : Nat} (escape : CodeEscape written n)
    (character : n.isValidChar) : decodeFrom 0 ('\\' :: (written ++ rest)) =
      (decodeFrom 0 rest).map ([Char.ofNat n] ++ ·) := by
  have nonempty : written ++ rest ≠ [] := by cases escape <;> simp
  have value : escapeValue (written ++ rest) = .ok ([Char.ofNat n], written.length) := by
    rw [escapeValue_code escape, charOfCode_of_isValidChar character]
    rfl
  rw [decodeFrom_escape nonempty, value, ok_bind, List.drop_left]

/-- An escaped character that begins no code is looked at by itself. -/
theorem decodeFrom_codeless {c : Char} (codeless : c ≠ 'u' ∧ c ≠ 'x') :
    decodeFrom 0 ('\\' :: c :: rest) =
      (decodeFrom 0 ((c :: rest).drop (plainEscape (c :: rest)).2)).map
        ((plainEscape (c :: rest)).1 ++ ·) := by
  have uncoded : codeEscape? (c :: rest) = none := by
    refine codeEscape?_eq_none fun written code escape front => ?_
    cases escape with
    | braced => exact codeless.1 (List.cons_prefix_cons.mp front).1.symm
    | four => exact codeless.1 (List.cons_prefix_cons.mp front).1.symm
    | two => exact codeless.2 (List.cons_prefix_cons.mp front).1.symm
  rw [decodeFrom_escape (List.cons_ne_nil c rest), escapeValue, uncoded]
  rfl

theorem decodeFrom_lineEnd (e : LineEnd)
    (apart : e = .carriageReturn → rest.head? ≠ some '\n') :
    decodeFrom 0 ('\\' :: e.text ++ rest) = decodeFrom 0 rest := by
  have same : ∀ x : Except EscapeFault (List Char), x.map ([] ++ ·) = x := by
    intro x
    cases x <;> rfl
  have ended : plainEscape (e.text ++ rest) = ([], e.text.length) := by
    cases e with
    | carriageReturn =>
      have lone : ∀ more, rest = '\n' :: more → False := by
        rintro more rfl
        exact apart rfl rfl
      rw [LineEnd.text, List.singleton_append, plainEscape.eq_3 _ _ fun _ _ => lone _]
      rfl
    | _ => rfl
  cases e <;>
    · simp only [LineEnd.text, List.cons_append, List.nil_append] at ended ⊢
      rw [decodeFrom_codeless (by decide), ended]
      exact same _

theorem plainEscape_controlOr {c : Char} (other : c ∉ ['\n', '\r', '\u2028', '\u2029']) :
    plainEscape (c :: rest) = ([controlOr c], 1) := by
  simp only [List.mem_cons, List.not_mem_nil, or_false, not_or] at other
  obtain ⟨feed, ret, line, paragraph⟩ := other
  have found : ((controlEscapes.find? fun e => e.1 == c).map (·.2)).getD c = controlOr c := by
    unfold controlOr
    split
    case h_8 n t r b f v zero =>
      simp [controlEscapes, Ne.symm n, Ne.symm t, Ne.symm r, Ne.symm b, Ne.symm f, Ne.symm v,
        Ne.symm zero]
    all_goals rfl
  simp [plainEscape, feed, ret, line, paragraph, found]

/-- A piece at the front of a text has its value, whatever follows it. -/
theorem decodeFrom_piece (p : Piece)
    (apart : p = .lineEnd .carriageReturn → rest.head? ≠ some '\n') :
    decodeFrom 0 (p.text ++ rest) = (decodeFrom 0 rest).map (p.value ++ ·) := by
  cases p with
  | itself c unescaped => exact decodeFrom_plain_cons (Or.inl unescaped)
  | code written n escape character => exact decodeFrom_character escape character
  | lineEnd e =>
    have ended := decodeFrom_lineEnd e fun h => apart (congrArg Piece.lineEnd h)
    rw [Piece.text, ended]
    cases decodeFrom 0 rest <;> rfl
  | escaped c other =>
    simp only [List.mem_cons, not_or] at other
    obtain ⟨u, x, single⟩ := other
    have value : plainEscape (c :: rest) = ([controlOr c], 1) :=
      plainEscape_controlOr (by simpa using single)
    rw [Piece.text, List.cons_append, List.singleton_append, decodeFrom_codeless ⟨u, x⟩, value]
    rfl

/-! ### Sequences of pieces -/

/-- A body that is put together from pieces has the value that is put together from theirs. -/
theorem decodeEscapes_flatMap_text (pieces : List Piece)
    (apart : ∀ after, .lineEnd .carriageReturn :: after <:+ pieces →
      (after.flatMap Piece.text).head? ≠ some '\n') :
    decodeEscapes (pieces.flatMap Piece.text) = .ok (pieces.flatMap Piece.value) := by
  induction pieces with
  | nil => rfl
  | cons p pieces ih =>
    have tail : decodeEscapes (pieces.flatMap Piece.text) = .ok (pieces.flatMap Piece.value) :=
      ih fun after h => apart after (h.trans (List.suffix_cons p pieces))
    rw [decodeEscapes] at tail ⊢
    rw [List.flatMap_cons, decodeFrom_piece p fun h => apart pieces (h ▸ List.suffix_refl _), tail]
    rfl

/-- A backslash that is escaped before `u`, a zero before a digit, a letter by its code, and an
escaped carriage return whose line feed is escaped too. -/
def mixedPieces : List Piece :=
  [.escaped '\\' (by decide), .itself 'u' (by decide), .escaped '0' (by decide),
    .itself '1' (by decide),
    .code ('x' :: "41".toList) 0x41
      (@CodeEscape.two "41".toList rfl (List.all_eq_true.mp (by decide)))
      (by decide),
    .lineEnd .carriageReturn, .lineEnd .lineFeed, .itself 'z' (by decide)]

theorem decodeEscapes_mixedPieces :
    (∀ after, .lineEnd .carriageReturn :: after <:+ mixedPieces →
      (after.flatMap Piece.text).head? ≠ some '\n') ∧
    decodeEscapes "\\\\u\\01\\x41\\\r\\\nz".toList = .ok "\\u\x001Az".toList := by
  have apart : ∀ after, .lineEnd .carriageReturn :: after <:+ mixedPieces →
      (after.flatMap Piece.text).head? ≠ some '\n' := by
    intro after h
    simp only [mixedPieces, List.suffix_cons_iff, List.suffix_nil, List.cons.injEq, reduceCtorEq,
      Piece.lineEnd.injEq, false_and, true_and, false_or, or_false] at h
    rw [h]
    decide
  exact ⟨apart, decodeEscapes_flatMap_text mixedPieces apart⟩

end EnvCensus.Script
