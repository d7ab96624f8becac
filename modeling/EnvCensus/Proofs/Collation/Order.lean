import EnvCensus.Proofs.Collation
import Mathlib.Data.List.Forall2
import Mathlib.Order.RelClasses

/-!
# Words in order

Words are texts of letters, digits and underscores. They are compared sign by sign
without regard to case: the underscore comes first, then the digits, then the
letters, and a word comes before its extensions. Of two words that differ in case
only, the one with the lower-case letter at the first difference comes first. This
is the order of the sort keys of words, and it is strict and total.
-/

namespace EnvCensus.Collation

open Name (Letter Digit)

variable {c d : Char} {cs ds : List Char}

/-- What words consist of. -/
def Sign (c : Char) : Prop := Letter c ∨ Digit c ∨ c = '_'

/-- Texts of letters, digits and underscores. -/
abbrev Word := { s : String // ∀ c ∈ s.toList, Sign c }

/-- Signs that differ in case at most. -/
def Alike (c d : Char) : Prop := c.toLower = d.toLower

/-- The order of signs: the underscore, the digits, the letters without regard to case. -/
inductive Below : Char → Char → Prop
  | underscore {d : Char} (other : Digit d ∨ Letter d) : Below '_' d
  | digits {c d : Char} (first : Digit c) (second : Digit d) (lt : c < d) : Below c d
  | mixed {c d : Char} (first : Digit c) (second : Letter d) : Below c d
  | letters {c d : Char} (first : Letter c) (second : Letter d) (lt : c.toLower < d.toLower) :
    Below c d

/-- Sign by sign and without regard to case the first text is smaller; a text is smaller than its
extensions. -/
inductive Smaller : List Char → List Char → Prop
  | ended (d : Char) (ds : List Char) : Smaller [] (d :: ds)
  | decided {c d : Char} (lower : Below c d) (cs ds : List Char) : Smaller (c :: cs) (d :: ds)
  | alike {c d : Char} {cs ds : List Char} (same : Alike c d) (later : Smaller cs ds) :
    Smaller (c :: cs) (d :: ds)

/-- The texts differ in case only, and the first has the lower-case letter where they differ
first. -/
structure LowerFirst (cs ds : List Char) : Prop where
  alike : List.Forall₂ Alike cs ds
  lower : ∃ shared c d rest rest', cs = shared ++ c :: rest ∧ ds = shared ++ d :: rest' ∧
    c ≠ d ∧ 'a' ≤ c ∧ c ≤ 'z'

/-- The first name comes before the second. -/
def Precedes (m n : String) : Prop := Smaller m.toList n.toList ∨ LowerFirst m.toList n.toList

/-! ### Signs in the parts of a key -/

/-- A sign in the folded part of a key. -/
def rank (c : Char) : Char := sinkUnderscore c.toLower

theorem Sign.ascii (h : Sign c) : c.toNat < 128 := Name.toNat_lt_of_isTail (Name.isTail_iff.mpr h)

theorem Sign.of_digit (h : Digit c) : Sign c := Or.inr (Or.inl h)

theorem Sign.of_letter (h : Letter c) : Sign c := Or.inl h

instance : DecidablePred Letter := fun c =>
  inferInstanceAs (Decidable (('a' ≤ c ∧ c ≤ 'z') ∨ ('A' ≤ c ∧ c ≤ 'Z')))

instance : DecidablePred Digit := fun c => inferInstanceAs (Decidable ('0' ≤ c ∧ c ≤ '9'))

instance : DecidablePred Sign := fun c =>
  inferInstanceAs (Decidable (Letter c ∨ Digit c ∨ c = '_'))

/-- What holds of all ASCII characters holds of every sign. -/
theorem Sign.of_ascii {p : Char → Prop} (all : ∀ n < 128, p (Char.ofNat n)) (h : Sign c) : p c := by
  have at_c := all c.toNat h.ascii
  rwa [Char.ofNat_toNat] at at_c

theorem rank_digit (h : Digit c) : rank c = c :=
  Sign.of_ascii (p := fun c => Digit c → rank c = c) (by decide) (.of_digit h) h

theorem rank_letter (h : Letter c) : rank c = c.toLower :=
  Sign.of_ascii (p := fun c => Letter c → rank c = c.toLower) (by decide) (.of_letter h) h

/-- Letters rank above the digits, which rank above the underscore. -/
theorem nine_lt_rank (h : Letter c) : '9' < rank c :=
  Sign.of_ascii (p := fun c => Letter c → '9' < rank c) (by decide) (.of_letter h) h

theorem rank_underscore_lt (h : Digit c ∨ Letter c) : rank '_' < rank c := by
  have least : rank '_' < '0' := by decide
  rcases h with digit | letter
  · exact lt_of_lt_of_le least (by rw [rank_digit digit]; exact digit.1)
  · exact lt_trans least (lt_trans (by decide) (nine_lt_rank letter))

theorem rank_digit_lt (hc : Digit c) (hd : Letter d) : rank c < rank d := by
  rw [rank_digit hc]
  exact lt_of_le_of_lt hc.2 (nine_lt_rank hd)

/-- Signs rank in their order. -/
theorem rank_lt_iff (hc : Sign c) (hd : Sign d) : rank c < rank d ↔ Below c d := by
  constructor
  · intro lt
    rcases hc with letter | digit | rfl
    · rcases hd with letter' | digit' | rfl
      · exact .letters letter letter' (by rwa [rank_letter letter, rank_letter letter'] at lt)
      · exact absurd lt (lt_asymm (rank_digit_lt digit' letter))
      · exact absurd lt (lt_asymm (rank_underscore_lt (Or.inr letter)))
    · rcases hd with letter' | digit' | rfl
      · exact .mixed digit letter'
      · exact .digits digit digit' (by rwa [rank_digit digit, rank_digit digit'] at lt)
      · exact absurd lt (lt_asymm (rank_underscore_lt (Or.inl digit)))
    · rcases hd with letter' | digit' | rfl
      · exact .underscore (Or.inr letter')
      · exact .underscore (Or.inl digit')
      · exact absurd lt (lt_irrefl _)
  · intro below
    cases below with
    | underscore other => exact rank_underscore_lt other
    | digits first second lt => rwa [rank_digit first, rank_digit second]
    | mixed first second => exact rank_digit_lt first second
    | letters first second lt => rwa [rank_letter first, rank_letter second]

/-- Only case makes signs of one rank differ. -/
theorem rank_eq_iff (hc : Sign c) (hd : Sign d) : rank c = rank d ↔ Alike c d := by
  have some : ∀ {x : Char}, Sign x → x.toLower ≠ '\x00' := by
    intro x hx
    exact Sign.of_ascii (p := fun x => Sign x → x.toLower ≠ '\x00') (by decide) hx hx
  constructor
  · intro same
    simp only [rank, sinkUnderscore, beq_iff_eq] at same
    split at same
    · rename_i sunk
      split at same
      · rename_i sunk'
        exact sunk.trans sunk'.symm
      · exact absurd same.symm (some hd)
    · split at same
      · exact absurd same (some hc)
      · exact same
  · intro alike
    rw [rank, rank, alike]

/-- A letter in upper case. -/
def Capital (c : Char) : Prop := 'A' ≤ c ∧ c ≤ 'Z'

instance : DecidablePred Capital := fun c => inferInstanceAs (Decidable ('A' ≤ c ∧ c ≤ 'Z'))

theorem capital_of_ne (h : Sign c) (ne : c ≠ c.toLower) : Capital c :=
  Sign.of_ascii (p := fun c => c ≠ c.toLower → Capital c) (by decide) h ne

theorem Capital.sign (h : Capital c) : Sign c := Sign.of_letter (Or.inr h)

theorem Capital.opposite_eq (h : Capital c) : opposite c = c.toLower :=
  Sign.of_ascii (p := fun c => Capital c → opposite c = c.toLower) (by decide) h.sign h

theorem Capital.opposite_toLower (h : Capital c) : opposite c.toLower = c := by
  rw [← h.opposite_eq, opposite_opposite h.sign.ascii]

theorem Capital.lt_toLower (h : Capital c) : c < c.toLower :=
  Sign.of_ascii (p := fun c => Capital c → c < c.toLower) (by decide) h.sign h

theorem Capital.toLower_lower (h : Capital c) : 'a' ≤ c.toLower ∧ c.toLower ≤ 'z' :=
  Sign.of_ascii (p := fun c => Capital c → 'a' ≤ c.toLower ∧ c.toLower ≤ 'z') (by decide) h.sign h

theorem Capital.not_lower (h : Capital c) : ¬ ('a' ≤ c ∧ c ≤ 'z') := fun lower =>
  absurd (le_trans lower.1 h.2) (by decide)

/-- Of two signs that differ in case only, the lower-case one has the lesser opposite. -/
theorem opposite_lt_iff (hc : Sign c) (hd : Sign d) (alike : Alike c d) (ne : c ≠ d) :
    opposite c < opposite d ↔ 'a' ≤ c ∧ c ≤ 'z' := by
  by_cases low : c = c.toLower
  · by_cases low' : d = d.toLower
    · exact absurd (low.trans (alike.trans low'.symm)) ne
    · have capital := capital_of_ne hd low'
      have same : d.toLower = c := alike.symm.trans low.symm
      have opposite_c : opposite c = d := same ▸ capital.opposite_toLower
      rw [opposite_c, capital.opposite_eq, same]
      exact iff_of_true (same ▸ capital.lt_toLower) (same ▸ capital.toLower_lower)
  · have capital := capital_of_ne hc low
    by_cases low' : d = d.toLower
    · have same : c.toLower = d := alike.trans low'.symm
      have opposite_d : opposite d = c := same ▸ capital.opposite_toLower
      rw [opposite_d, capital.opposite_eq, same]
      exact iff_of_false (lt_asymm (same ▸ capital.lt_toLower)) capital.not_lower
    · refine absurd ?_ ne
      rw [← capital.opposite_toLower, alike, (capital_of_ne hd low').opposite_toLower]

/-! ### Texts in the parts of a key -/

/-- The folded parts of the keys decide which text is smaller. -/
theorem map_rank_lt_iff (hcs : ∀ c ∈ cs, Sign c) (hds : ∀ d ∈ ds, Sign d) :
    cs.map rank < ds.map rank ↔ Smaller cs ds := by
  induction cs generalizing ds with
  | nil =>
    cases ds with
    | nil => exact iff_of_false (lt_irrefl _) (by rintro ⟨⟩)
    | cons d ds => exact iff_of_true (List.nil_lt_cons _ _) (.ended d ds)
  | cons c cs ih =>
    cases ds with
    | nil => exact iff_of_false (List.not_lt_nil _) (by rintro ⟨⟩)
    | cons d ds =>
      obtain ⟨hc, hcs⟩ := List.forall_mem_cons.mp hcs
      obtain ⟨hd, hds⟩ := List.forall_mem_cons.mp hds
      rw [List.map_cons, List.map_cons, List.cons_lt_cons_iff, rank_lt_iff hc hd, rank_eq_iff hc hd,
        ih hcs hds]
      constructor
      · rintro (lower | ⟨same, later⟩)
        · exact .decided lower cs ds
        · exact .alike same later
      · intro smaller
        cases smaller with
        | decided lower => exact Or.inl lower
        | alike same later => exact Or.inr ⟨same, later⟩

/-- Texts with one folded part differ in case at most. -/
theorem map_rank_eq_iff (hcs : ∀ c ∈ cs, Sign c) (hds : ∀ d ∈ ds, Sign d) :
    cs.map rank = ds.map rank ↔ List.Forall₂ Alike cs ds := by
  induction cs generalizing ds with
  | nil => cases ds <;> simp
  | cons c cs ih =>
    cases ds with
    | nil => simp
    | cons d ds =>
      obtain ⟨hc, hcs⟩ := List.forall_mem_cons.mp hcs
      obtain ⟨hd, hds⟩ := List.forall_mem_cons.mp hds
      rw [List.map_cons, List.map_cons, List.cons.injEq, rank_eq_iff hc hd, ih hcs hds,
        List.forall₂_cons]

/-- The first difference is at the front or behind a common sign. -/
theorem lowerFirst_cons (same : Alike c d) (alike : List.Forall₂ Alike cs ds) :
    LowerFirst (c :: cs) (d :: ds) ↔
      (c ≠ d ∧ 'a' ≤ c ∧ c ≤ 'z') ∨ (c = d ∧ LowerFirst cs ds) := by
  constructor
  · rintro ⟨-, shared, a, b, rest, rest', first, second, ne, lower⟩
    cases shared with
    | nil =>
      cases first
      cases second
      exact Or.inl ⟨ne, lower⟩
    | cons s shared =>
      cases first
      cases second
      exact Or.inr ⟨rfl, alike, shared, a, b, rest, rest', rfl, rfl, ne, lower⟩
  · rintro (⟨ne, lower⟩ | ⟨rfl, -, shared, a, b, rest, rest', rfl, rfl, ne, lower⟩)
    · exact ⟨.cons same alike, [], c, d, cs, ds, rfl, rfl, ne, lower⟩
    · exact ⟨.cons same alike, c :: shared, a, b, rest, rest', rfl, rfl, ne, lower⟩

/-- Where texts differ in case only, the exchanged parts of their keys are decided by the first
difference. -/
theorem map_opposite_lt_iff (hcs : ∀ c ∈ cs, Sign c) (hds : ∀ d ∈ ds, Sign d)
    (alike : List.Forall₂ Alike cs ds) :
    cs.map opposite < ds.map opposite ↔ LowerFirst cs ds := by
  induction alike with
  | nil =>
    refine iff_of_false (lt_irrefl _) ?_
    rintro ⟨-, shared, c, d, rest, rest', first, -⟩
    simp at first
  | @cons c d cs ds same alike ih =>
    obtain ⟨hc, hcs⟩ := List.forall_mem_cons.mp hcs
    obtain ⟨hd, hds⟩ := List.forall_mem_cons.mp hds
    have opposites : opposite c = opposite d ↔ c = d := by
      refine ⟨fun e => ?_, congrArg opposite⟩
      rw [← opposite_opposite hc.ascii, e, opposite_opposite hd.ascii]
    rw [List.map_cons, List.map_cons, List.cons_lt_cons_iff, ih hcs hds, opposites,
      lowerFirst_cons same alike]
    by_cases eq : c = d
    · subst eq
      simp
    · rw [opposite_lt_iff hc hd same eq]
      simp only [ne_eq, eq, not_false_eq_true, true_and, false_and]

/-! ### Words -/

/-- The key of a word, sign by sign. -/
theorem key_word (w : Word) : key w.1 = ⟨w.1.toList.map rank, w.1.toList.map opposite⟩ := by
  have ascii : ∀ c ∈ w.1.toList, c.toNat < 128 := fun c hc => (w.2 c hc).ascii
  have folded : Text.fold w.1.toList = w.1.toList.map Char.toLower := by
    rw [Text.fold, List.map_eq_flatMap]
    exact List.flatMap_congr fun c hc => by rw [Text.foldChar, if_pos (ascii c hc)]
  rw [key, folded, Text.swap, swapAfter_ascii ascii, List.map_map]
  rfl

theorem key_injective_word : Function.Injective fun w : Word => key w.1 := fun v w same =>
  Subtype.ext (key_injOn_ascii (fun c hc => (v.2 c hc).ascii) (fun c hc => (w.2 c hc).ascii) same)

/-- The words come in the order of their keys. -/
theorem before_iff_precedes (v w : Word) : Before v.1 w.1 ↔ Precedes v.1 w.1 := by
  rw [Before, key_word, key_word, Key.pair, Key.pair, Prod.Lex.toLex_lt_toLex, Precedes,
    map_rank_lt_iff v.2 w.2, map_rank_eq_iff v.2 w.2]
  refine or_congr Iff.rfl ⟨?_, fun first => ⟨first.alike, ?_⟩⟩
  · rintro ⟨alike, lt⟩
    exact (map_opposite_lt_iff v.2 w.2 alike).mp lt
  · exact (map_opposite_lt_iff v.2 w.2 first.alike).mpr first

theorem before_iff_not_le (m n : String) : Before m n ↔ (key n).le (key m) = false := by
  rw [Before, ← not_le, ← Key.le_iff, Bool.not_eq_true]

theorem before_isStrictTotalOrder : IsStrictTotalOrder Word fun v w => Before v.1 w.1 where
  irrefl v := Before.irrefl v.1
  trans _ _ _ := Before.trans
  trichotomous _ _ unlike unlike' :=
    key_injective_word (Key.pair_injective (le_antisymm (not_lt.mp unlike') (not_lt.mp unlike)))

/-- The keys put words into a strict total order: no two words have one key, and a word comes before
another just when it is smaller sign by sign or, where the two differ in case only, has the
lower-case letter at the first difference. Words without repetition are sorted in this order. -/
theorem words_in_order :
    (Function.Injective fun w : Word => key w.1) ∧
      IsStrictTotalOrder Word (fun v w => (key w.1).le (key v.1) = false) ∧
      (∀ v w : Word, (key w.1).le (key v.1) = false ↔ Precedes v.1 w.1) ∧
      ∀ words : List Word, words.Nodup →
        (sortBy (·.1) words).Pairwise fun v w => Precedes v.1 w.1 := by
  simp only [← before_iff_not_le]
  refine ⟨key_injective_word, before_isStrictTotalOrder, before_iff_precedes, fun words once => ?_⟩
  have names : (words.map (·.1)).Nodup := once.map Subtype.val_injective
  have keys : ∀ v ∈ words, ∀ w ∈ words, key v.1 = key w.1 → v.1 = w.1 :=
    fun v _ w _ same => congrArg Subtype.val (key_injective_word same)
  exact (sortBy_before names keys).imp fun before => (before_iff_precedes _ _).mp before

example : ["_PRIVATE", "api_key", "API_KEY", "DB_HOST", "DB2", "DBA", "Zeta"].Pairwise
    fun m n => (key n).le (key m) = false := by decide

end EnvCensus.Collation
