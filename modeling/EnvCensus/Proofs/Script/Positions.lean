import EnvCensus.Proofs.Script.Places
import EnvCensus.Proofs.Text.Utf8
import Mathlib.Data.List.DropRight

/-!
# Lines and columns

Places in a script are counted in bytes, since the last line feed; sightings
count characters. A line is cut out of the bytes of the script at its line
feeds, cut off at the place and read as a text again. No byte of another
character is a line feed, and a place between two characters cuts no character
in two, so the columns are those of the text.
-/

namespace EnvCensus.Text

variable {α : Type} [DecidableEq α] {sep : α} {above front : List α}

/-! ### Pieces between separators -/

theorem length_splitOn (sep : α) (xs : List α) :
    (xs.splitOn sep).length = xs.count sep + 1 := by
  induction xs with
  | nil => simp
  | cons x xs ih =>
    rw [List.splitOn_cons_eq_if_modifyHead, List.count_cons]
    split
    · simp [ih]
    · simp [ih]

/-- The first piece begins with what stands before every separator. -/
theorem head_splitOn (rest : List α) (free : sep ∉ front) :
    ∃ tail, ((front ++ rest).splitOn sep).head? = some (front ++ tail) := by
  by_cases more : sep ∈ rest
  · obtain ⟨tail, after, rfl, tailFree⟩ := List.eq_append_cons_of_mem more
    refine ⟨tail, ?_⟩
    have allFree : sep ∉ front ++ tail := by
      simp [free, tailFree]
    rw [← List.append_assoc, List.splitOn_append_cons_self_of_not_mem allFree, List.head?_cons]
  · refine ⟨rest, ?_⟩
    have allFree : sep ∉ front ++ rest := by
      simp [free, more]
    rw [List.splitOn_eq_singleton allFree, List.head?_cons]

/-- The piece with the number of the separators before it begins where the last of them ends. -/
theorem getElem?_splitOn (rest : List α) (closed : ∀ last ∈ above.getLast?, last = sep)
    (free : sep ∉ front) :
    ∃ tail, ((above ++ front ++ rest).splitOn sep)[above.count sep]? = some (front ++ tail) := by
  rcases List.eq_nil_or_concat above with rfl | ⟨older, last, rfl⟩
  · obtain ⟨tail, first⟩ := head_splitOn rest free
    refine ⟨tail, ?_⟩
    rw [List.count_nil, List.nil_append, ← List.head?_eq_getElem?, first]
  · obtain rfl : last = sep := closed last (by simp)
    obtain ⟨tail, first⟩ := head_splitOn rest free
    refine ⟨tail, ?_⟩
    have split : (older.concat last ++ front ++ rest).splitOn last =
        older.splitOn last ++ (front ++ rest).splitOn last := by
      rw [List.concat_eq_append, List.append_assoc, List.append_assoc, List.singleton_append,
        List.splitOn_append_cons_self]
    have number : (older.concat last).count last = (older.splitOn last).length := by
      rw [length_splitOn, List.concat_eq_append, List.count_append, List.count_singleton_self]
    rw [split, number, List.getElem?_append_right (Nat.le_refl _), Nat.sub_self,
      ← List.head?_eq_getElem?, first]

/-! ### Bytes of lines -/

theorem encode_append (xs ys : List Char) : encode (xs ++ ys) = encode xs ++ encode ys :=
  List.flatMap_append

theorem encode_length (cs : List Char) :
    (encode cs).length = (String.ofList cs).utf8ByteSize := by
  have bytes : (String.ofList cs).utf8ByteSize = cs.utf8Encode.size := rfl
  rw [bytes, List.utf8Encode, List.size_toByteArray, encode]

/-- The bytes of a character beyond the short ones are beyond them too. -/
theorem high_of_mem_utf8EncodeChar {c : Char} (long : 128 ≤ c.toNat) :
    ∀ b ∈ String.utf8EncodeChar c, 128 ≤ b.toNat := by
  have same : c.val.toNat = c.toNat := rfl
  unfold String.utf8EncodeChar
  simp only [same]
  rw [if_neg (by omega)]
  split
  · simp only [List.forall_mem_cons, List.not_mem_nil, false_implies, implies_true,
      UInt8.toNat_ofNat', and_true]
    omega
  · split
    · simp only [List.forall_mem_cons, List.not_mem_nil, false_implies, implies_true,
        UInt8.toNat_ofNat', and_true]
      omega
    · simp only [List.forall_mem_cons, List.not_mem_nil, false_implies, implies_true,
        UInt8.toNat_ofNat', and_true]
      omega

/-- Only a line feed is written with the byte of a line feed. -/
theorem count_feed_utf8EncodeChar (c : Char) :
    (String.utf8EncodeChar c).count 0x0A = if c = '\n' then 1 else 0 := by
  by_cases long : 128 ≤ c.toNat
  · have other : c ≠ '\n' := by
      rintro rfl
      exact absurd long (by decide)
    rw [if_neg other, List.count_eq_zero]
    intro feed
    exact absurd (high_of_mem_utf8EncodeChar long _ feed) (by decide)
  · have all : ∀ n < 128, (String.utf8EncodeChar (Char.ofNat n)).count 0x0A =
        if Char.ofNat n = '\n' then 1 else 0 := by
      decide
    have short := all c.toNat (by omega)
    rwa [Char.ofNat_toNat] at short

theorem count_feed_encode (cs : List Char) : (encode cs).count 0x0A = cs.count '\n' := by
  induction cs with
  | nil => rfl
  | cons c cs ih =>
    rw [encode_cons, List.count_append, count_feed_utf8EncodeChar, ih, List.count_cons,
      Nat.add_comm]
    simp only [beq_iff_eq]

theorem feed_mem_encode {cs : List Char} : 0x0A ∈ encode cs ↔ '\n' ∈ cs := by
  rw [← List.count_pos_iff, ← List.count_pos_iff, count_feed_encode]

theorem decodeLossy_encode (cs : List Char) : decodeLossy (encode cs) = cs := by
  rw [decodeLossy, decodeOnto_encode]
  rfl

end EnvCensus.Text

namespace EnvCensus.Script

open Text

/-! ### Places -/

/-- What stands behind the last line feed of a text. -/
def lastLine (cs : List Char) : List Char := cs.rtakeWhile (· ≠ '\n')

theorem lastLine_feed (cs : List Char) : lastLine (cs ++ ['\n']) = [] :=
  List.rtakeWhile_concat_neg _ _ _ (by decide)

theorem lastLine_concat (cs : List Char) {c : Char} (other : c ≠ '\n') :
    lastLine (cs ++ [c]) = lastLine cs ++ [c] :=
  List.rtakeWhile_concat_pos _ _ _ (by simpa using other)

/-- What stands up to the last line feed ends with it, and nothing behind it is one. -/
theorem lastLine_spec (before : List Char) : ∃ above, before = above ++ lastLine before ∧
    (∀ last ∈ above.getLast?, last = '\n') ∧ '\n' ∉ lastLine before := by
  refine ⟨before.rdropWhile (· ≠ '\n'), List.rdropWhile_append_rtakeWhile.symm, ?_, ?_⟩
  · intro last hlast
    obtain ⟨ne, rfl⟩ := List.mem_getLast?_eq_getLast hlast
    simpa using List.rdropWhile_last_not (· ≠ '\n') before ne
  · intro feed
    simpa using List.mem_rtakeWhile_imp feed

/-- The row of a place has the bytes of the last line before it, with others behind them. -/
theorem lineTable_row (before after : List Char) : ∃ tail,
    (lineTable (before ++ after)).getD (before.count '\n') [] =
      encode (lastLine before) ++ tail := by
  obtain ⟨above, split, closed, free⟩ := lastLine_spec before
  have closedBytes : ∀ last ∈ (encode above).getLast?, last = 0x0A := by
    rcases List.eq_nil_or_concat above with rfl | ⟨older, last, rfl⟩
    · intro b hb
      cases hb
    · obtain rfl : last = '\n' := closed last (by simp)
      intro b hb
      rw [List.concat_eq_append, encode_append] at hb
      have feed : encode ['\n'] = [0x0A] := by decide
      simpa [feed, eq_comm] using hb
  obtain ⟨tail, piece⟩ := getElem?_splitOn (encode after) closedBytes
    (mt feed_mem_encode.mp free)
  have number : before.count '\n' = (encode above).count 0x0A := by
    conv_lhs => rw [split, List.count_append, List.count_eq_zero.mpr free, Nat.add_zero]
    rw [count_feed_encode]
  refine ⟨tail, ?_⟩
  have bytes : encode (before ++ after) =
      encode above ++ encode (lastLine before) ++ encode after := by
    conv_lhs => rw [split]
    rw [encode_append, encode_append]
  rw [lineTable, bytes, number, Array.getD_eq_getD_getElem?, List.getElem?_toArray, piece,
    Option.getD_some]

/-- The row of a place are the line feeds before it, its column the bytes of the last line. -/
theorem advance_origin (before : List Char) : origin.advance before =
    ⟨before.count '\n', (String.ofList (lastLine before)).utf8ByteSize⟩ := by
  induction before using List.reverseRecOn with
  | nil => rfl
  | append_singleton before c ih =>
    have step (p : Point) : p.advance [c] = p.after c := rfl
    rw [Point.advance_append, ih, step, List.count_append]
    by_cases feed : c = '\n'
    · subst feed
      rw [lastLine_feed]
      rfl
    · rw [lastLine_concat before feed, String.ofList_append, String.utf8ByteSize_append]
      simp [Point.after, feed]

theorem position_advance (before after : List Char) :
    (lineTable (before ++ after)).position (origin.advance before) =
      (before.count '\n' + 1, 1 + (lastLine before).length) := by
  obtain ⟨tail, row⟩ := lineTable_row before after
  rw [advance_origin, LineTable.position, row, ← encode_length, List.take_left, decodeLossy_encode,
    Nat.add_comm 1]

/-- The place before each character of a script, and the one at its end, is reported with the number
of its line and the number of characters before it there, both counted from one; the row and the
column in bytes that make up the place are those of the tokens that start there. -/
theorem position_exact (content : String) (i : Nat) :
    let before := content.toList.take i
    let point : Point := ⟨before.count '\n', (String.ofList (lastLine before)).utf8ByteSize⟩
    (lineTable content.toList).position point =
      (before.count '\n' + 1, 1 + (lastLine before).length) ∧ origin.advance before = point := by
  intro before point
  have place := position_advance before (content.toList.drop i)
  rw [List.take_append_drop, advance_origin] at place
  exact ⟨place, advance_origin before⟩

/-- Characters of one, two, three and four bytes before a place in the second line. -/
example : (lineTable "a\né‰😀b".toList).position ⟨1, 9⟩ = (2, 4) := by
  decide +kernel

end EnvCensus.Script
