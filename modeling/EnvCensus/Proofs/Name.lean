import EnvCensus.Name
import EnvCensus.Proofs.Text.Blank
import Mathlib.Data.Char
import Mathlib.Data.List.TakeWhile

/-!
# Names of variables

What the check of a name lets pass, spelled out on the characters of the name:
an exact name, and one more text for each exact name, the name with a line feed
after it. What is split off the front of a text is always exact.
-/

namespace EnvCensus.Name

/-- A letter from `a` to `z`, in either case. -/
def Letter (c : Char) : Prop := ('a' ≤ c ∧ c ≤ 'z') ∨ ('A' ≤ c ∧ c ≤ 'Z')

def Digit (c : Char) : Prop := '0' ≤ c ∧ c ≤ '9'

/-- The text is a name to its very end: a letter or an underscore, then letters, digits and
underscores. -/
def Exact (s : String) : Prop :=
  ∃ c rest, s.toList = c :: rest ∧ (Letter c ∨ c = '_') ∧
    ∀ x ∈ rest, Letter x ∨ Digit x ∨ x = '_'

theorem isAlpha_iff {c : Char} : c.isAlpha = true ↔ Letter c := by
  delta Char.isAlpha Char.isUpper Char.isLower Letter
  simp only [Char.le_def, Bool.or_eq_true, Bool.and_eq_true, decide_eq_true_eq, ge_iff_le]
  exact or_comm

theorem isDigit_iff {c : Char} : c.isDigit = true ↔ Digit c := by
  delta Char.isDigit Digit
  simp only [Char.le_def, Bool.and_eq_true, decide_eq_true_eq, ge_iff_le]

theorem isHead_iff {c : Char} : isHead c = true ↔ Letter c ∨ c = '_' := by
  simp only [isHead, Bool.or_eq_true, isAlpha_iff, beq_iff_eq]

theorem isTail_iff {c : Char} : isTail c = true ↔ Letter c ∨ Digit c ∨ c = '_' := by
  simp only [isTail, Char.isAlphanum, Bool.or_eq_true, isAlpha_iff, isDigit_iff, beq_iff_eq,
    or_assoc]

theorem exact_iff {s : String} : Exact s ↔
    ∃ c rest, s.toList = c :: rest ∧ isHead c = true ∧ ∀ x ∈ rest, isTail x = true := by
  simp only [Exact, isHead_iff, isTail_iff]

instance (s : String) : Decidable (Exact s) :=
  decidable_of_iff (s.toList.head?.any isHead = true ∧ s.toList.tail.all isTail = true) <| by
    rw [exact_iff]
    cases s.toList with
    | nil => simp
    | cons c rest =>
      rw [List.head?_cons, Option.any_some, List.tail_cons, List.all_eq_true]
      constructor
      · exact fun h => ⟨c, rest, rfl, h⟩
      · rintro ⟨_, _, e, h⟩
        cases e
        exact h

theorem toNat_lt_of_isTail {c : Char} (h : isTail c = true) : c.toNat < 128 := by
  have bounds : c.isAlphanum = true ∨ c = '_' := by simpa [isTail] using h
  rcases bounds with hc | rfl
  · delta Char.isAlphanum Char.isAlpha Char.isUpper Char.isLower Char.isDigit at hc
    simp only [Bool.or_eq_true, Bool.and_eq_true, decide_eq_true_eq, UInt32.le_iff_toNat_le] at hc
    have : c.toNat = c.val.toNat := rfl
    simp at hc
    omega
  · decide

/-- No character of a name is a blank. -/
theorem isBlank_of_isTail {c : Char} (h : isTail c = true) : Text.isBlank c = false := by
  have ascii : ∀ n < 128, isTail (Char.ofNat n) = true → Text.isBlank (Char.ofNat n) = false := by
    decide
  have at_c := ascii c.toNat (toNat_lt_of_isTail h)
  rw [Char.ofNat_toNat] at at_c
  exact at_c h

theorem isTail_of_isHead {c : Char} (h : isHead c = true) : isTail c = true := by
  have : c.isAlpha = true ∨ c = '_' := by simpa [isHead] using h
  rcases this with hc | rfl
  · simp [isTail, Char.isAlphanum, hc]
  · decide

theorem isValid_iff {s : String} : isValid s = true ↔ ∃ c rest, s.toList = c :: rest ∧
    isHead c = true ∧ (rest.dropWhile isTail = [] ∨ rest.dropWhile isTail = ['\n']) := by
  unfold isValid
  cases s.toList with
  | nil => simp [split]
  | cons c rest =>
    simp only [split, List.cons.injEq]
    constructor
    · intro h
      by_cases head : isHead c = true
      · exact ⟨c, rest, ⟨rfl, rfl⟩, head, by simpa only [head, if_true, Bool.or_eq_true,
          List.isEmpty_iff, beq_iff_eq] using h⟩
      · simp [head] at h
    · rintro ⟨c, rest, ⟨rfl, rfl⟩, head, tail⟩
      simpa only [head, if_true, Bool.or_eq_true, List.isEmpty_iff, beq_iff_eq] using tail

/-- What is split off the front of a text is an exact name, the longest one there. -/
theorem split_eq_some {cs name rest : List Char} : split cs = some (name, rest) ↔
    cs = name ++ rest ∧ Exact (String.ofList name) ∧ ∀ c ∈ rest.head?, isTail c = false := by
  rw [exact_iff, String.toList_ofList]
  constructor
  · intro h
    cases cs with
    | nil => cases h
    | cons c cs =>
      rw [split] at h
      split at h
      · rename_i head
        cases h
        exact ⟨by simp, ⟨c, cs.takeWhile isTail, rfl, head, fun x => List.mem_takeWhile_imp⟩,
          Text.head?_dropWhile isTail cs⟩
      · cases h
  · rintro ⟨rfl, ⟨c, run, rfl, head, tail⟩, boundary⟩
    obtain ⟨taken, dropped⟩ := Text.takeWhile_run tail boundary
    rw [List.cons_append, split, if_pos head, taken, dropped]

/-- After the longest run of characters that a name can go on with there is one line feed just when
the text is such a run with a line feed after it. -/
theorem dropWhile_eq_feed {rest : List Char} : rest.dropWhile isTail = ['\n'] ↔
    ∃ run, rest = run ++ ['\n'] ∧ ∀ x ∈ run, isTail x = true := by
  constructor
  · intro h
    refine ⟨rest.takeWhile isTail, ?_, fun x hx => List.mem_takeWhile_imp hx⟩
    rw [← h, List.takeWhile_append_dropWhile]
  · rintro ⟨run, rfl, tail⟩
    rw [List.dropWhile_append_of_pos tail]
    rfl

/-- What is valid is an exact name, or an exact name with a line feed after it. -/
theorem isValid_iff_exact {s : String} :
    isValid s = true ↔ Exact s ∨ ∃ t, Exact t ∧ s = t ++ "\n" := by
  simp only [isValid_iff, exact_iff]
  constructor
  · rintro ⟨c, rest, hs, head, none | feed⟩
    · exact Or.inl ⟨c, rest, hs, head, List.dropWhile_eq_nil_iff.mp none⟩
    · obtain ⟨run, rfl, tail⟩ := dropWhile_eq_feed.mp feed
      refine Or.inr ⟨String.ofList (c :: run), ⟨c, run, by simp, head, tail⟩, ?_⟩
      exact String.toList_inj.mp (by simpa using hs)
  · rintro (⟨c, rest, hs, head, tail⟩ | ⟨t, ⟨c, run, ht, head, tail⟩, rfl⟩)
    · exact ⟨c, rest, hs, head, Or.inl (List.dropWhile_eq_nil_iff.mpr tail)⟩
    · refine ⟨c, run ++ ['\n'], by simp [ht], head, Or.inr ?_⟩
      exact dropWhile_eq_feed.mpr ⟨run, rfl, tail⟩

theorem Exact.isValid {s : String} (h : Exact s) : isValid s = true :=
  isValid_iff_exact.mpr (Or.inl h)

/-- No line feed stands in an exact name. -/
theorem Exact.no_feed {s : String} (h : Exact s) : '\n' ∉ s.toList := by
  obtain ⟨c, rest, hs, head, tail⟩ := exact_iff.mp h
  rw [hs, List.mem_cons, not_or]
  refine ⟨?_, fun hx => absurd (tail _ hx) (by decide)⟩
  rintro rfl
  exact absurd head (by decide)

theorem not_exact_feed (t : String) : ¬ Exact (t ++ "\n") := by
  intro h
  exact h.no_feed (by simp)

theorem Exact.isTail {s : String} (h : Exact s) {c : Char} (hc : c ∈ s.toList) :
    isTail c = true := by
  obtain ⟨d, rest, e, head, tail⟩ := exact_iff.mp h
  rw [e] at hc
  rcases List.mem_cons.mp hc with rfl | hc
  · exact isTail_of_isHead head
  · exact tail c hc

/-- An exact name begins as names do. -/
theorem Exact.head? {name : List Char} (h : Exact (String.ofList name)) (rest : List Char) :
    ∃ c, (name ++ rest).head? = some c ∧ isHead c = true := by
  obtain ⟨c, run, e, head, -⟩ := exact_iff.mp h
  rw [String.toList_ofList] at e
  exact ⟨c, by rw [e]; rfl, head⟩

/-- A valid name has nothing but the characters of names, and perhaps a line feed. -/
theorem isTail_of_isValid {s : String} (h : isValid s = true) {c : Char} (hc : c ∈ s.toList) :
    isTail c = true ∨ c = '\n' := by
  rcases isValid_iff_exact.mp h with exact | ⟨t, exact, rfl⟩
  · exact Or.inl (exact.isTail hc)
  · rw [String.toList_append] at hc
    rcases List.mem_append.mp hc with hc | hc
    · exact Or.inl (exact.isTail hc)
    · exact Or.inr (List.mem_singleton.mp hc)

/-- A valid name is ASCII, the line feed that may end it included. -/
theorem ascii_of_isValid {s : String} (h : isValid s = true) :
    ∀ c ∈ s.toList, c.toNat < 128 := by
  intro c hc
  rcases isTail_of_isValid h hc with tail | rfl
  · exact toNat_lt_of_isTail tail
  · decide

end EnvCensus.Name
