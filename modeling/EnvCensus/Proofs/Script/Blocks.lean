import EnvCensus.Proofs.Leftmost
import EnvCensus.Proofs.Script.Embedded
import EnvCensus.Proofs.Text.Blank
import Mathlib

/-!
# Script blocks

A block is an opening tag with its attributes, a body and the nearest closing
tag behind it. The blocks of a text are taken from left to right: where a block
could begin inside of one that is taken, it is left out. Of a component file
without front matter the bodies of the blocks are kept, and line feeds, and
everything else is blank. The script is typed when some block says so.
-/

namespace EnvCensus.Script

variable {cs rest text content attributes : List Char} {c w : Char} {n at_ skip : Nat} {e : Element}

/-! ### Words in either case -/

/-- The letter in either case. The long s is an s as well, and an i may have its dot or lack it. -/
inductive SameLetter (w : Char) : Char → Prop
  | lower : SameLetter w w
  | upper : SameLetter w w.toUpper
  | longS (h : w = 's') : SameLetter w 'ſ'
  | dotted (h : w = 'i') : SameLetter w 'İ'
  | dotless (h : w = 'i') : SameLetter w 'ı'

/-- An ASCII character that is not a capital letter. -/
def Lower (w : Char) : Prop := w.toNat < 128 ∧ ¬ w.isUpper

instance (w : Char) : Decidable (Lower w) := inferInstanceAs (Decidable (_ ∧ _))

theorem toLower_eq_iff (lower : Lower w) : c.toLower = w ↔ c = w ∨ c = w.toUpper := by
  have same : w.toLower = w := Char.toLower_eq_of_not_isUpper lower.2
  constructor
  · rintro rfl
    by_cases upper : c.isUpper
    · rw [Char.toUpper_toLower_eq_toUpper,
        Char.toUpper_eq_of_not_isLower (Char.not_isLower_of_isUpper upper)]
      exact Or.inr rfl
    · exact Or.inl (Char.toLower_eq_of_not_isUpper upper).symm
  · rintro (rfl | rfl)
    · exact same
    · rw [Char.toLower_toUpper_eq_toLower, same]

/-- Only ASCII characters are an ASCII character in either case, but for three letters. -/
theorem sameLetter_iff (lower : Lower w) : SameLetter w c ↔ c.toLower = w ∨
    (w = 's' ∧ c = 'ſ') ∨ (w = 'i' ∧ (c = 'İ' ∨ c = 'ı')) := by
  rw [toLower_eq_iff lower]
  constructor
  · rintro (_ | _ | h | h | h) <;> simp [*]
  · rintro ((rfl | rfl) | ⟨h, rfl⟩ | ⟨h, rfl | rfl⟩)
    · exact .lower
    · exact .upper
    · exact .longS h
    · exact .dotted h
    · exact .dotless h

theorem looseLetter_eq_iff (lower : Lower w) : looseLetter c = w ↔ SameLetter w c := by
  rw [sameLetter_iff lower]
  have ascii : ∀ d : Char, 128 ≤ d.toNat → w ≠ d := by
    rintro d far rfl
    exact absurd lower.1 (Nat.not_lt_of_le far)
  unfold looseLetter
  split
  · rename_i h
    obtain rfl := eq_of_beq h
    simp [ascii 'ſ' (by decide), eq_comm]
  · rename_i notS
    split
    · rename_i h
      rw [Bool.or_eq_true, beq_iff_eq, beq_iff_eq] at h
      rcases h with rfl | rfl
      · simp [ascii 'İ' (by decide), eq_comm]
      · simp [ascii 'ı' (by decide), eq_comm]
    · rename_i notI
      rw [Bool.or_eq_true, beq_iff_eq, beq_iff_eq] at notI
      rw [beq_iff_eq] at notS
      simp [notS, notI]

/-- The text is the word in letters of either case. -/
def Spells (word : String) (text : List Char) : Prop := List.Forall₂ SameLetter word.toList text

theorem afterLoose?_eq_some {word : List Char} (lower : ∀ w ∈ word, Lower w) :
    afterLoose? word cs = some rest ↔
      ∃ text, List.Forall₂ SameLetter word text ∧ cs = text ++ rest := by
  fun_induction afterLoose? word cs with
  | case1 cs => simp [eq_comm]
  | case2 w word c cs same ih =>
    obtain ⟨first, others⟩ := List.forall_mem_cons.mp lower
    have letter : SameLetter w c := (looseLetter_eq_iff first).mp (eq_of_beq same)
    rw [ih others]
    constructor
    · rintro ⟨text, spells, rfl⟩
      exact ⟨c :: text, .cons letter spells, rfl⟩
    · rintro ⟨text, spells, split⟩
      cases spells with
      | cons _ spells =>
        cases split
        exact ⟨_, spells, rfl⟩
  | case3 w word c cs differs =>
    obtain ⟨first, -⟩ := List.forall_mem_cons.mp lower
    refine iff_of_false (by simp) ?_
    rintro ⟨text, spells, split⟩
    cases spells with
    | cons letter _ =>
      cases split
      exact differs (beq_iff_eq.mpr ((looseLetter_eq_iff first).mpr letter))
  | case4 w word =>
    refine iff_of_false (by simp) ?_
    rintro ⟨text, spells, split⟩
    cases spells
    cases split

theorem sameLetter_bracket : SameLetter '<' c ↔ c = '<' := by
  rw [sameLetter_iff (by decide), toLower_eq_iff (by decide)]
  simp

/-! ### Tags -/

/-- A closing tag, perhaps with blanks before its last character. -/
inductive ClosingTag : List Char → Prop
  | mk {name blanks : List Char} (spells : Spells "</script" name)
      (blank : ∀ b ∈ blanks, Text.isBlank b = true) : ClosingTag (name ++ blanks ++ ['>'])

theorem closingTag?_eq_some :
    closingTag? cs = some n ↔ ∃ tag, tag <+: cs ∧ ClosingTag tag ∧ tag.length = n := by
  have lower : ∀ w ∈ "</script".toList, Lower w := List.all_iff_forall_prop.mp (by decide)
  constructor
  · intro h
    obtain ⟨rest, word, h⟩ := Option.bind_eq_some_iff.mp h
    obtain ⟨name, spells, rfl⟩ := (afterLoose?_eq_some lower).mp word
    split at h
    · rename_i after left
      obtain ⟨blanks, blank, rfl⟩ := (Text.trimLeft_eq_cons_iff (by decide)).mp left
      refine ⟨_, ?_, .mk spells blank, ?_⟩
      · exact ⟨after, by simp⟩
      · cases h
        simp
        omega
    · cases h
  · rintro ⟨_, ⟨after, rfl⟩, ⟨spells, blank⟩, rfl⟩
    rename_i name blanks
    have word : afterLoose? "</script".toList (name ++ blanks ++ ['>'] ++ after) =
        some (blanks ++ '>' :: after) :=
      (afterLoose?_eq_some lower).mpr ⟨name, spells, by simp⟩
    have left : Text.trimLeft (blanks ++ '>' :: after) = '>' :: after :=
      (Text.trimLeft_eq_cons_iff (by decide)).mpr ⟨blanks, blank, rfl⟩
    simp only [closingTag?, word, left, Option.bind_eq_bind, Option.bind_some]
    simp
    omega

theorem ClosingTag.first {tag : List Char} (h : ClosingTag tag) : ∃ tail, tag = '<' :: tail := by
  obtain ⟨spells, -⟩ := h
  cases spells with
  | cons letter _ =>
    obtain rfl := sameLetter_bracket.mp letter
    exact ⟨_, rfl⟩

theorem closingFrom_cons (before : Nat) (c : Char) (cs : List Char) :
    closingFrom before (c :: cs) =
      match closingTag? (c :: cs) with
      | some n => some (before, n)
      | none => closingFrom (before + 1) cs := by
  rw [closingFrom]
  split
  · rfl
  · rename_i other
    cases closes : closingTag? (c :: cs) with
    | none => rfl
    | some n =>
      obtain ⟨tag, starts, closing, -⟩ := closingTag?_eq_some.mp closes
      obtain ⟨tail, rfl⟩ := closing.first
      obtain ⟨rfl, -⟩ := List.cons_prefix_cons.mp starts
      exact absurd (beq_self_eq_true _) other

/-- The text goes on with a body up to the nearest closing tag. -/
structure Closes (text body tag : List Char) : Prop where
  reaches : body ++ tag <+: text
  tag : ClosingTag tag
  nearest : ∀ k < body.length, ∀ tag', ClosingTag tag' → ¬ tag' <+: text.drop k

/-- A character at which no closing tag begins belongs to the body. -/
theorem closes_cons_iff {body tag : List Char} (none : closingTag? (c :: cs) = none) :
    Closes (c :: cs) body tag ↔ ∃ body', body = c :: body' ∧ Closes cs body' tag := by
  have absent : ∀ tag', ClosingTag tag' → ¬ tag' <+: c :: cs := by
    intro tag' closing starts
    have found := closingTag?_eq_some.mpr ⟨tag', starts, closing, rfl⟩
    rw [none] at found
    cases found
  constructor
  · rintro ⟨reaches, closing, nearest⟩
    cases body with
    | nil => exact absurd reaches (absent tag closing)
    | cons d body =>
      obtain ⟨rfl, further⟩ := List.cons_prefix_cons.mp reaches
      exact ⟨body, rfl, further, closing, fun k hk => nearest (k + 1) (Nat.succ_lt_succ hk)⟩
  · rintro ⟨body, rfl, reaches, closing, nearest⟩
    refine ⟨List.cons_prefix_cons.mpr ⟨rfl, reaches⟩, closing, fun k hk => ?_⟩
    cases k with
    | zero => exact absent
    | succ k => exact nearest k (Nat.lt_of_succ_lt_succ hk)

theorem closingFrom_eq_some {before close : Nat} :
    closingFrom before text = some (n, close) ↔
      ∃ body tag, Closes text body tag ∧ n = before + body.length ∧ close = tag.length := by
  induction text generalizing before with
  | nil =>
    refine iff_of_false (by simp [closingFrom]) ?_
    rintro ⟨body, tag, closes, -⟩
    obtain ⟨tail, rfl⟩ := closes.tag.first
    simpa using closes.reaches
  | cons c cs ih =>
    rw [closingFrom_cons]
    cases here : closingTag? (c :: cs) with
    | none =>
      simp only [ih, closes_cons_iff here]
      constructor
      · rintro ⟨body, tag, closes, rfl, rfl⟩
        exact ⟨_, tag, ⟨body, rfl, closes⟩, by simp; omega, rfl⟩
      · rintro ⟨_, tag, ⟨body, rfl, closes⟩, rfl, rfl⟩
        exact ⟨body, tag, closes, by simp; omega, rfl⟩
    | some k =>
      obtain ⟨tag, starts, closing, rfl⟩ := closingTag?_eq_some.mp here
      constructor
      · intro h
        cases h
        exact ⟨[], tag, ⟨starts, closing, by simp⟩, rfl, rfl⟩
      · rintro ⟨body, tag', closes, rfl, rfl⟩
        cases body with
        | nil =>
          have same := closingTag?_eq_some.mpr ⟨tag', closes.reaches, closes.tag, rfl⟩
          rw [here] at same
          rw [Option.some_inj.mp same]
          rfl
        | cons d body => exact absurd starts (closes.nearest 0 (Nat.succ_pos _) tag closing)

/-- The text begins with a script block: an opening tag, whose attributes end at the first angle
bracket, a body and the nearest closing tag. -/
inductive BeginsBlock : List Char → Element → Prop
  | mk {name attributes text body tag : List Char} (spells : Spells "<script" name)
      (boundary : ∀ c ∈ attributes.head?, Text.isWordChar c = false) (inside : '>' ∉ attributes)
      (closes : Closes text body tag) :
      BeginsBlock (name ++ (attributes ++ '>' :: text))
        ⟨attributes, name.length + attributes.length + 1, body.length,
          name.length + attributes.length + 1 + body.length + tag.length⟩

theorem scriptWord_lower : ∀ w ∈ "<script".toList, Lower w := List.all_iff_forall_prop.mp (by decide)

theorem beginsBlock_of_element? (h : element? cs = some e) : BeginsBlock cs e := by
  obtain ⟨rest, word, reads⟩ := Option.bind_eq_some_iff.mp h
  obtain ⟨name, spells, rfl⟩ := (afterLoose?_eq_some scriptWord_lower).mp word
  have seven : name.length = 7 := spells.length_eq.symm
  split at reads
  · cases reads
  split at reads
  · cases reads
  rename_i c more other
  simp only at reads
  split at reads
  · cases reads
  rename_i d text opened
  obtain ⟨⟨n, close⟩, closed, made⟩ := Option.bind_eq_some_iff.mp reads
  obtain ⟨body, tag, closes, rfl, rfl⟩ := closingFrom_eq_some.mp closed
  -- the attributes are what stands before the first angle bracket
  obtain ⟨attributes, inside, whole⟩ := Text.exists_of_dropWhile_ne opened
  rw [whole, (Text.takeWhile_ne_append inside _).1, ← seven, Nat.zero_add] at made
  cases made
  rw [whole]
  refine .mk spells (fun a ha => ?_) inside closes
  cases attributes with
  | nil => cases ha
  | cons b attributes =>
    cases ha
    cases whole
    exact Bool.eq_false_iff.mpr other

theorem BeginsBlock.element?_eq (h : BeginsBlock cs e) : element? cs = some e := by
  obtain ⟨spells, boundary, inside, closes⟩ := h
  rename_i name attributes text body tag
  have seven : name.length = 7 := spells.length_eq.symm
  have word : afterLoose? "<script".toList (name ++ (attributes ++ '>' :: text)) =
      some (attributes ++ '>' :: text) :=
    (afterLoose?_eq_some scriptWord_lower).mpr ⟨name, spells, rfl⟩
  have closed : closingFrom 0 text = some (body.length, tag.length) :=
    closingFrom_eq_some.mpr ⟨body, tag, closes, (Nat.zero_add _).symm, rfl⟩
  obtain ⟨taken, dropped⟩ := Text.takeWhile_ne_append inside text
  unfold element?
  rw [word, Option.bind_eq_bind, Option.bind_some]
  split
  · rename_i none
    simp at none
  · rename_i c more whole
    have plain : Text.isWordChar c = false := by
      cases attributes with
      | nil =>
        cases whole
        decide
      | cons b attributes =>
        cases whole
        exact boundary _ rfl
    rw [plain, taken, dropped, seven]
    simp only [Bool.false_eq_true, if_false, closed]
    rfl

theorem element?_eq_some : element? cs = some e ↔ BeginsBlock cs e :=
  ⟨beginsBlock_of_element?, BeginsBlock.element?_eq⟩

/-! ### The leftmost blocks -/

/-- A block begins at the place. -/
def BlockAt (content : List Char) (p : Nat × Element) : Prop :=
  BeginsBlock (content.drop p.1) p.2

/-- The blocks that are found from left to right, none of them beginning before the end of the one
before it: every other block begins inside of one of them. -/
structure Leftmost (content : List Char) (blocks : List (Nat × Element)) : Prop where
  each : ∀ p ∈ blocks, BlockAt content p
  apart : blocks.Pairwise fun p q => p.1 + p.2.length ≤ q.1
  others : ∀ p, BlockAt content p →
    p ∈ blocks ∨ ∃ q ∈ blocks, q.1 < p.1 ∧ p.1 < q.1 + q.2.length

theorem BeginsBlock.first (h : BeginsBlock cs e) : ∃ tail, cs = '<' :: tail := by
  obtain ⟨spells, -, -, -⟩ := h
  cases spells with
  | cons letter _ =>
    obtain rfl := sameLetter_bracket.mp letter
    exact ⟨_, rfl⟩

theorem BeginsBlock.length_pos (h : BeginsBlock cs e) : 0 < e.length := by
  cases h
  simp only
  omega

theorem first?_eq (c : Char) (cs : List Char) : first? c cs = element? (c :: cs) := by
  unfold first?
  split
  · rfl
  · rename_i other
    cases found : element? (c :: cs) with
    | none => rfl
    | some e =>
      obtain ⟨tail, split⟩ := (element?_eq_some.mp found).first
      cases split
      exact absurd (beq_self_eq_true _) other

/-- A block begins where an element is found, or inside of one. -/
theorem found_of_beginsBlock {k : Nat} (behind : skip ≤ k) (h : BeginsBlock (cs.drop k) e) :
    (at_ + k, e) ∈ elementsFrom at_ skip [] cs ∨
      ∃ q ∈ elementsFrom at_ skip [] cs, q.1 < at_ + k ∧ at_ + k < q.1 + q.2.length := by
  -- what is skipped belongs to the element before, so the place is looked for behind it
  induction cs generalizing at_ skip k with
  | nil =>
    obtain ⟨tail, split⟩ := h.first
    simp at split
  | cons c cs ih =>
    cases k with
    | zero =>
      obtain rfl := Nat.le_zero.mp behind
      have here : first? c cs = some e := (first?_eq c cs).trans (element?_eq_some.mpr h)
      rw [elementsFrom_zero, here]
      simp only
      rw [elementsFrom_eq]
      exact Or.inl (List.mem_append_left _ List.mem_cons_self)
    | succ k =>
      have later : ∀ {skip : Nat}, skip ≤ k →
          (at_ + (k + 1), e) ∈ elementsFrom (at_ + 1) skip [] cs ∨
            ∃ q ∈ elementsFrom (at_ + 1) skip [] cs,
              q.1 < at_ + (k + 1) ∧ at_ + (k + 1) < q.1 + q.2.length := by
        intro skip behind
        rw [show at_ + (k + 1) = at_ + 1 + k by omega]
        exact ih behind h
      cases skip with
      | succ skip => exact later (Nat.le_of_succ_le_succ behind)
      | zero =>
        rw [elementsFrom_zero]
        cases first? c cs with
        | none => exact later (Nat.zero_le k)
        | some e' =>
          simp only
          rw [elementsFrom_eq]
          by_cases inside : k + 1 < e'.length
          · exact Or.inr ⟨(at_, e'), List.mem_append_left _ List.mem_cons_self, by simp, by
              simpa using inside⟩
          · refine (later (Nat.sub_le_iff_le_add.mpr (Nat.le_of_not_lt inside))).imp
              (List.mem_append_right _) ?_
            rintro ⟨q, hq, covers⟩
            exact ⟨q, List.mem_append_right _ hq, covers⟩

theorem leftmost_elements (content : List Char) : Leftmost content (elements content) where
  each p hp := element?_eq_some.mp (standsAt_of_mem_elements hp).reads
  apart := elementsFrom_pairwise 0 0 content
  others p hp := by
    have found := @found_of_beginsBlock content 0 0 p.2 p.1 (Nat.zero_le p.1) hp
    rwa [Nat.zero_add] at found

variable {xs ys : List (Nat × Element)}

theorem Leftmost.foundInOrder (h : Leftmost content xs) :
    FoundInOrder (BlockAt content) (fun p q => q.1 < p.1 ∧ p.1 < q.1 + q.2.length) Prod.fst xs where
  valid := h.each
  ordered := h.apart.imp_of_mem fun hp _ follows =>
    Nat.lt_of_lt_of_le (Nat.lt_add_of_pos_right (h.each _ hp).length_pos) follows
  apart := by
    refine h.apart.imp fun follows => ?_
    rintro ⟨-, inside⟩
    exact Nat.not_lt_of_le follows inside
  others := h.others

/-- Only one list of blocks is found from left to right. -/
theorem Leftmost.unique (hx : Leftmost content xs) (hy : Leftmost content ys) : xs = ys :=
  FoundInOrder.unique (fun _ _ inside => And.left inside) hx.foundInOrder hy.foundInOrder

/-! ### What is kept -/

/-- The place is one of the span. -/
def Span.Covers (s : Span) (place : Nat) : Prop := s.start ≤ place ∧ place < s.stop

instance (s : Span) (place : Nat) : Decidable (s.Covers place) :=
  inferInstanceAs (Decidable (_ ∧ _))

theorem getElem?_slice (content : List Char) (start stop k : Nat) :
    (slice content start stop)[k]? = if k < stop - start then content[start + k]? else none := by
  rw [slice, List.getElem?_take, List.getElem?_drop]

theorem getElem?_blanked (cs : List Char) (k : Nat) :
    (blanked cs)[k]? = cs[k]?.map fun c => if c == '\n' then c else ' ' := by
  rw [blanked, List.getElem?_map]

/-- Up to a span everything is blank, the span is as it stands, and then come the others. -/
theorem getElem?_keepFrom_cons {s : Span} {position place : Nat} (first : s.Within content)
    (behind : position ≤ s.start) (from_ : position ≤ place) (spans : List Span) :
    (keepFrom content position (s :: spans))[place - position]? =
      if place < s.start then (blanked content)[place]?
      else if place < s.stop then content[place]?
      else (keepFrom content s.stop spans)[place - s.stop]? := by
  have whole := Nat.le_trans first.ordered first.inside
  have gap : (blanked (slice content position s.start)).length = s.start - position := by
    rw [(SameLayout.blanked _).length, length_slice whole]
  have body : (slice content s.start s.stop).length = s.stop - s.start := length_slice first.inside
  have ordered := first.ordered
  rw [keepFrom, List.append_assoc, List.getElem?_append, List.getElem?_append, gap, body]
  by_cases before : place < s.start
  · rw [if_pos before, if_pos (by omega), getElem?_blanked, getElem?_blanked, getElem?_slice,
      if_pos (by omega), Nat.add_sub_cancel' from_]
  · rw [if_neg before, if_neg (by omega)]
    by_cases inside : place < s.stop
    · rw [if_pos inside, if_pos (by omega), getElem?_slice, if_pos (by omega)]
      congr 1
      omega
    · rw [if_neg inside, if_neg (by omega)]
      congr 1
      omega

/-- What is kept stands where it stood, and elsewhere everything is blank. -/
theorem getElem?_keepFrom {position place : Nat} {spans : List Span}
    (within : ∀ s ∈ spans, s.Within content) (apart : Apart spans)
    (behind : ∀ s ∈ spans, position ≤ s.start) (from_ : position ≤ place) :
    (keepFrom content position spans)[place - position]? =
      if ∃ s ∈ spans, s.Covers place then content[place]? else (blanked content)[place]? := by
  induction spans generalizing position with
  | nil =>
    rw [keepFrom, getElem?_blanked, getElem?_blanked, List.getElem?_drop,
      Nat.add_sub_cancel' from_, if_neg (by simp)]
  | cons s spans ih =>
    obtain ⟨first, others⟩ := List.forall_mem_cons.mp within
    obtain ⟨next, apart⟩ := List.pairwise_cons.mp apart
    rw [getElem?_keepFrom_cons first (behind s List.mem_cons_self) from_]
    have ordered := first.ordered
    by_cases before : place < s.start
    · rw [if_pos before, if_neg]
      rintro ⟨t, ht, start, -⟩
      rcases List.mem_cons.mp ht with rfl | ht
      · omega
      · have := next t ht
        omega
    · rw [if_neg before]
      by_cases inside : place < s.stop
      · rw [if_pos inside, if_pos ⟨s, List.mem_cons_self, Nat.le_of_not_lt before, inside⟩]
      · rw [if_neg inside, ih others apart next (Nat.le_of_not_lt inside)]
        have here : ¬ s.Covers place := fun covers => inside covers.2
        simp only [List.exists_mem_cons_iff, here, false_or]

/-! ### Typed scripts -/

/-- A language attribute that says that a script is typed, in quotes of either kind. -/
inductive TypedAttribute : List Char → Prop
  | mk {name gap gap' value : List Char} {q q' : Char} (spells : Spells "lang" name)
      (blank : ∀ b ∈ gap, Text.isBlank b = true) (blank' : ∀ b ∈ gap', Text.isBlank b = true)
      (opening : q = '"' ∨ q = '\'') (typed : Spells "ts" value ∨ Spells "typescript" value)
      (closing : q' = '"' ∨ q' = '\'') :
      TypedAttribute (name ++ (gap ++ '=' :: (gap' ++ q :: (value ++ [q']))))

/-- Among the attributes stands one that says that the script is typed, not in the middle of a
word. -/
def SaysTyped (attributes : List Char) : Prop :=
  ∃ before text after, attributes = before ++ text ++ after ∧ TypedAttribute text ∧
    ∀ c ∈ before.getLast?, Text.isWordChar c = false

theorem afterLang_iff : (afterLoose? "lang".toList cs).map Text.trimLeft = some ('=' :: rest) ↔
    ∃ name gap, Spells "lang" name ∧ (∀ b ∈ gap, Text.isBlank b = true) ∧
      cs = name ++ (gap ++ '=' :: rest) := by
  have lower : ∀ w ∈ "lang".toList, Lower w := List.all_iff_forall_prop.mp (by decide)
  constructor
  · intro h
    obtain ⟨behind, word, left⟩ := Option.map_eq_some_iff.mp h
    obtain ⟨name, spells, rfl⟩ := (afterLoose?_eq_some lower).mp word
    obtain ⟨gap, blank, rfl⟩ := (Text.trimLeft_eq_cons_iff (by decide)).mp left
    exact ⟨name, gap, spells, blank, rfl⟩
  · rintro ⟨name, gap, spells, blank, rfl⟩
    exact Option.map_eq_some_iff.mpr ⟨_, (afterLoose?_eq_some lower).mpr ⟨name, spells, rfl⟩,
      (Text.trimLeft_eq_cons_iff (by decide)).mpr ⟨gap, blank, rfl⟩⟩

/-- Behind the quote stands a typed language and then a quote of either kind. -/
theorem typedWord_iff : (["ts", "typescript"].any fun w =>
      match afterLoose? w.toList cs with
      | some (r :: _) => r == '"' || r == '\''
      | _ => false) = true ↔
    ∃ value q' after, cs = value ++ q' :: after ∧ (Spells "ts" value ∨ Spells "typescript" value) ∧
      (q' = '"' ∨ q' = '\'') := by
  have lower : ∀ word ∈ ["ts", "typescript"], ∀ w ∈ word.toList, Lower w := by
    intro word hw
    rcases List.mem_pair.mp hw with rfl | rfl <;> exact List.all_iff_forall_prop.mp (by decide)
  constructor
  · intro h
    obtain ⟨w, hw, closed⟩ := List.any_eq_true.mp h
    split at closed
    · rename_i q' after valued
      obtain ⟨value, spells, rfl⟩ := (afterLoose?_eq_some (lower w hw)).mp valued
      refine ⟨value, q', after, rfl, ?_, Text.isQuote_iff.mp closed⟩
      rcases List.mem_pair.mp hw with rfl | rfl
      · exact Or.inl spells
      · exact Or.inr spells
    · cases closed
  · rintro ⟨value, q', after, rfl, typed, closing⟩
    obtain ⟨w, hw, spells⟩ : ∃ w ∈ ["ts", "typescript"], Spells w value := by
      rcases typed with typed | typed
      · exact ⟨"ts", by simp, typed⟩
      · exact ⟨"typescript", by simp, typed⟩
    have valued : afterLoose? w.toList (value ++ q' :: after) = some (q' :: after) :=
      (afterLoose?_eq_some (lower w hw)).mpr ⟨value, spells, rfl⟩
    refine List.any_eq_true.mpr ⟨w, hw, ?_⟩
    rw [valued]
    exact Text.isQuote_iff.mpr closing

theorem namesTyped_iff : namesTyped cs = true ↔ ∃ text, text <+: cs ∧ TypedAttribute text := by
  have quote_plain : ∀ {q : Char}, q = '"' ∨ q = '\'' → Text.isBlank q = false := by
    rintro q (rfl | rfl) <;> decide
  constructor
  · intro h
    unfold namesTyped at h
    split at h
    · rename_i rest named
      obtain ⟨name, gap, spells, blank, rfl⟩ := afterLang_iff.mp named
      split at h
      · rename_i q quoted left
        obtain ⟨opening, typed⟩ := Bool.and_eq_true_iff.mp h
        have opening := Text.isQuote_iff.mp opening
        obtain ⟨gap', blank', rfl⟩ := (Text.trimLeft_eq_cons_iff (quote_plain opening)).mp left
        obtain ⟨value, q', after, rfl, typed, closing⟩ := typedWord_iff.mp typed
        exact ⟨_, ⟨after, by simp⟩, .mk spells blank blank' opening typed closing⟩
      · cases h
    · cases h
  · rintro ⟨_, ⟨after, rfl⟩, ⟨spells, blank, blank', opening, typed, closing⟩⟩
    rename_i name gap gap' value q q'
    have named : (afterLoose? "lang".toList
        (name ++ (gap ++ '=' :: (gap' ++ q :: (value ++ q' :: after))))).map Text.trimLeft =
          some ('=' :: (gap' ++ q :: (value ++ q' :: after))) :=
      afterLang_iff.mpr ⟨name, gap, spells, blank, rfl⟩
    have left : Text.trimLeft (gap' ++ q :: (value ++ q' :: after)) =
        q :: (value ++ q' :: after) :=
      (Text.trimLeft_eq_cons_iff (quote_plain opening)).mpr ⟨gap', blank', rfl⟩
    have whole : name ++ (gap ++ '=' :: (gap' ++ q :: (value ++ [q']))) ++ after =
        name ++ (gap ++ '=' :: (gap' ++ q :: (value ++ q' :: after))) := by simp
    unfold namesTyped
    rw [whole, named]
    simp only [left]
    exact Bool.and_eq_true_iff.mpr ⟨Text.isQuote_iff.mpr opening,
      typedWord_iff.mpr ⟨value, q', after, rfl, typed, closing⟩⟩

theorem TypedAttribute.ne_nil (h : TypedAttribute text) : text ≠ [] := by
  cases h
  simp

/-- The character before the rest of a text decides whether a word begins there. -/
theorem isTypedFrom_iff {before : Option Char} : isTypedFrom before cs = true ↔
    ∃ front text after, cs = front ++ text ++ after ∧ TypedAttribute text ∧
      ∀ c ∈ front.getLast?.or before, Text.isWordChar c = false := by
  induction cs generalizing before with
  | nil =>
    refine iff_of_false (by simp [isTypedFrom]) ?_
    rintro ⟨front, text, after, whole, typed, -⟩
    exact typed.ne_nil (by simp_all)
  | cons c cs ih =>
    rw [isTypedFrom, Bool.or_eq_true, Bool.and_eq_true, Bool.not_eq_true', Option.any_eq_false, ih,
      namesTyped_iff]
    -- with nothing in front, the character before the text is the last one
    have last (front : List Char) :
        (c :: front).getLast?.or before = front.getLast?.or (some c) := by
      rw [List.getLast?_cons]
      cases front.getLast? <;> rfl
    constructor
    · rintro (⟨apart, text, ⟨after, whole⟩, typed⟩ | ⟨front, text, after, rfl, typed, apart⟩)
      · exact ⟨[], text, after, whole.symm, typed, by simpa using apart⟩
      · exact ⟨c :: front, text, after, rfl, typed, by rwa [last]⟩
    · rintro ⟨front, text, after, whole, typed, apart⟩
      cases front with
      | nil => exact Or.inl ⟨by simpa using apart, text, ⟨after, whole.symm⟩, typed⟩
      | cons d front =>
        cases whole
        exact Or.inr ⟨front, text, after, rfl, typed, by rwa [← last]⟩

theorem isTyped_iff (e : Element) : e.isTyped = true ↔ SaysTyped e.attributes := by
  simp [Element.isTyped, isTypedFrom_iff, SaysTyped]

/-! ### Component files -/

/-- The place is one of the body of a block. -/
def InBody (blocks : List (Nat × Element)) (place : Nat) : Prop :=
  ∃ p ∈ blocks, (p.2.span p.1).Covers place

/-- The script of a component file is as long as the file, holds what stands in the bodies of the
blocks and at the ends of lines, and is blank elsewhere. It is typed when a block says so. -/
structure Extracted (content : List Char) (blocks : List (Nat × Element))
    (script : List Char × Dialect) : Prop where
  length : script.1.length = content.length
  kept : ∀ place, InBody blocks place ∨ content[place]? = some '\n' →
    script.1[place]? = content[place]?
  blank : ∀ place < content.length, ¬ (InBody blocks place ∨ content[place]? = some '\n') →
    script.1[place]? = some ' '
  typed : (∃ p ∈ blocks, SaysTyped p.2.attributes) → script.2 = .typescript
  untyped : (¬ ∃ p ∈ blocks, SaysTyped p.2.attributes) → script.2 = .javascript

theorem inBody_elements {place : Nat} :
    InBody (elements content) place ↔ ∃ s ∈ bodies content, s.Covers place := by
  simp [InBody, bodies]

/-- Without front matter, the bodies are kept as they were found. -/
theorem extract_bodies (content : List Char) {suffix : String} (plain : suffix ≠ ".astro") :
    (extract content suffix).1 = keepFrom content 0 (bodies content) := by
  rw [extract_script, if_neg (mt beq_iff_eq.mp plain), List.nil_append,
    List.mergeSort_of_pairwise (bodies_pairwise content)]

theorem getElem?_extract (content : List Char) {suffix : String} (plain : suffix ≠ ".astro")
    (place : Nat) : (extract content suffix).1[place]? =
      if ∃ s ∈ bodies content, s.Covers place then content[place]?
      else (blanked content)[place]? := by
  rw [extract_bodies content plain]
  exact getElem?_keepFrom within_of_mem_bodies (bodies_apart content)
    (fun s _ => Nat.zero_le s.start) (Nat.zero_le place)

theorem extract_dialect (content : List Char) {suffix : String} (plain : suffix ≠ ".astro") :
    (extract content suffix).2 =
      if (elements content).any fun p => p.2.isTyped then .typescript else .javascript := by
  simp only [extract, if_neg (mt beq_iff_eq.mp plain), List.isEmpty_nil, Bool.not_true,
    Bool.false_or]

theorem anyTyped_iff : ((elements content).any fun p => p.2.isTyped) = true ↔
    ∃ p ∈ elements content, SaysTyped p.2.attributes := by
  simp only [List.any_eq_true, isTyped_iff]

theorem extracted_elements (content : List Char) {suffix : String} (plain : suffix ≠ ".astro") :
    Extracted content (elements content) (extract content suffix) where
  length := (sameLayout_extract fun page => absurd page plain).length
  kept place keeps := by
    rw [getElem?_extract content plain]
    split
    · rfl
    · rename_i outside
      rcases keeps with inside | feed
      · exact absurd (inBody_elements.mp inside) outside
      · rw [getElem?_blanked, feed]
        rfl
  blank place inside drops := by
    obtain ⟨outside, other⟩ := not_or.mp drops
    rw [getElem?_extract content plain, if_neg (mt inBody_elements.mpr outside), getElem?_blanked,
      List.getElem?_eq_getElem inside, Option.map_some, if_neg]
    rw [List.getElem?_eq_getElem inside] at other
    simpa using other
  typed some_ := by rw [extract_dialect content plain, if_pos (anyTyped_iff.mpr some_)]
  untyped none_ := by rw [extract_dialect content plain, if_neg (mt anyTyped_iff.mp none_)]

/-- In every text there is just one way to find the blocks from left to right, and the script of
a component file without front matter is extracted from them. -/
theorem extract_blocks (content : List Char) (suffix : String) (plain : suffix ≠ ".astro") :
    (∃! blocks, Leftmost content blocks) ∧
      ∀ blocks, Leftmost content blocks → Extracted content blocks (extract content suffix) := by
  have found := leftmost_elements content
  refine ⟨⟨elements content, found, fun blocks h => h.unique found⟩, fun blocks h => ?_⟩
  rw [h.unique found]
  exact extracted_elements content plain

/-- A page with two blocks, of which the second is typed, and a tag that is not closed. -/
def twoBlocks : List Char :=
  "<p>\n<script>a</script>\n<SCRIPT lang='TS' setup>\nb\n</Script >\n<script>".toList

/-- The bodies of both blocks are kept, and the script is typed. -/
theorem extract_twoBlocks : ".vue" ≠ ".astro" ∧ (∃! blocks, Leftmost twoBlocks blocks) ∧
    (∀ blocks, Leftmost twoBlocks blocks → Extracted twoBlocks blocks (extract twoBlocks ".vue")) ∧
    extract twoBlocks ".vue" =
      ("   \n        a         \n                        \nb\n          \n        ".toList,
        .typescript) := by
  have plain : ".vue" ≠ ".astro" := by decide
  obtain ⟨found, extracted⟩ := extract_blocks twoBlocks ".vue" plain
  refine ⟨plain, found, extracted, Prod.ext ?_ ?_⟩
  · rw [extract_bodies _ plain]
    decide +kernel
  · rw [extract_dialect _ plain]
    decide +kernel

end EnvCensus.Script
