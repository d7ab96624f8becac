import EnvCensus.Proofs.Dotenv.Grammar
import EnvCensus.Proofs.Splits
import Mathlib.Data.Bool.AllAny

/-!
# Comments behind quoted values

A value between quotes with a comment behind it. No hash between the quotes opens
a comment, since there the quote itself is odd in number. The hash behind them
does, unless the value has an odd number of the other quote: the quotes of either
kind are counted apart, and a single one in the value is never closed.
-/

namespace EnvCensus.Dotenv

open Text

variable {lead name text said : String} {p q : Char}
  {before value front sooner rest after : List Char}

theorem opens_iff : Opens front ↔ front ≠ [] ∧ ∀ p, isQuote p = true → Even (front.count p) := by
  simp only [Opens, isQuote_iff]
  constructor
  · rintro ⟨some, single, double⟩
    refine ⟨some, ?_⟩
    rintro p (rfl | rfl)
    · exact double
    · exact single
  · rintro ⟨some, even⟩
    exact ⟨some, even _ (Or.inr rfl), even _ (Or.inl rfl)⟩

section Quoted

variable (plain : ∀ c ∈ before, c ≠ '#' ∧ isQuote c = false)

include plain

theorem count_quote (hp : isQuote p = true) : before.count p = 0 := by
  refine List.count_eq_zero_of_not_mem fun mem => ?_
  have other := (plain p mem).2
  rw [hp] at other
  cases other

/-- The two quotes around the value leave the numbers even or odd. -/
theorem opens_quoted_iff : Opens (before ++ q :: (value ++ [q, ' '])) ↔
    ∀ p, isQuote p = true → Even (value.count p) := by
  have counted (p : Char) (hp : isQuote p = true) :
      (Even ((before ++ q :: (value ++ [q, ' '])).count p) ↔ Even (value.count p)) := by
    have space : p ≠ ' ' := by
      rintro rfl
      exact absurd hp (by decide)
    rw [List.count_append, count_quote plain hp, List.count_cons, List.count_append,
      List.count_cons, List.count_cons, List.count_nil, beq_false_of_ne space.symm, Nat.even_iff,
      Nat.even_iff]
    by_cases same : q = p <;> simp [same]
    omega
  rw [opens_iff]
  constructor
  · rintro ⟨-, even⟩ p hp
    exact (counted p hp).mp (even p hp)
  · exact fun even => ⟨by simp, fun p hp => (counted p hp).mpr (even p hp)⟩

/-- Between the quotes no hash opens a comment. -/
theorem not_opens_between (quote : isQuote q = true) (other : q ∉ value)
    (h : before ++ q :: (value ++ [q, ' ']) = sooner ++ '#' :: rest) : ¬ Opens sooner := by
  intro opens
  have hash : '#' ≠ q := by
    rintro rfl
    exact absurd quote (by decide)
  have absent : '#' ∉ before ++ [q] := by
    rw [List.mem_append, List.mem_singleton, not_or]
    exact ⟨fun mem => (plain _ mem).1 rfl, hash⟩
  rw [List.append_cons] at h
  obtain ⟨inner, rfl, behind⟩ := split_behind absent h
  obtain ⟨later, rfl⟩ := split_before (by simp [hash]) behind
  have one := (opens_iff.mp opens).2 q quote
  have none : inner.count q = 0 :=
    List.count_eq_zero_of_not_mem fun mem => other (List.mem_append_left _ mem)
  rw [List.count_append, List.count_append, count_quote plain quote, none,
    List.count_singleton_self] at one
  exact absurd one (by decide)

end Quoted

/-! ### The value and the comment -/

theorem trim_quoted (quote : isQuote q = true) (value : List Char) :
    trim (q :: (value ++ [q, ' '])) = q :: (value ++ [q]) := by
  have shown : isBlank q = false := by
    rcases isQuote_iff.mp quote with rfl | rfl <;> rfl
  rw [trim_cons shown, trimRight_append shown]
  rfl

theorem parseValue_quoted (quote : isQuote q = true) (text : String) :
    parseValue (q :: (text.toList ++ [q, ' '])) =
      if text == "" || isPlaceholder text then none else some text := by
  rw [parseValue, trim_quoted quote, ← List.cons_append, stripQuotes_quoted quote,
    String.ofList_toList]

/-- A text loses no hashes when it is trimmed, so what stands behind one of them is not trimmed to
the same. -/
theorem trim_ne_behind_hash (front after : List Char) :
    trim after ≠ trim (front ++ '#' :: after) := by
  intro same
  have counted : (trim after).count '#' = (trim (front ++ '#' :: after)).count '#' :=
    congrArg (List.count '#') same
  rw [count_trim rfl, count_trim rfl, List.count_append, List.count_cons_self] at counted
  omega

/-! ### The declaration -/

/-- What stands before the value of a declaration. -/
def opening (lead name : String) : List Char := lead.toList ++ (name.toList ++ ['='])

/-- A declaration of the text between quotes, a hash behind it, and the comment. -/
def quotedDeclaration (lead name : String) (q : Char) (text said : String) : List Char :=
  opening lead name ++ q :: (text.toList ++ [q, ' ']) ++ '#' :: ' ' :: said.toList

section Declaration

variable (exact : Name.Exact name) (known : lead = "" ∨ lead = "export ")

include known

theorem binds_opening (rest : List Char) : Binds name.toList rest (opening lead name ++ rest) := by
  rw [opening, List.append_assoc, List.append_assoc]
  rcases known with rfl | rfl
  · exact .plain (List.forall_mem_nil _)
  · exact @Binds.exported name.toList rest [' '] []
      ⟨List.cons_ne_nil _ _, List.forall_mem_singleton.mpr rfl⟩ (List.forall_mem_nil _)

include exact

/-- What stands before the value has neither hashes nor quotes. -/
theorem plain_opening : ∀ c ∈ opening lead name, c ≠ '#' ∧ isQuote c = false := by
  have front : ∀ c ∈ lead.toList, c ≠ '#' ∧ isQuote c = false := by
    rcases known with rfl | rfl <;> exact List.all_iff_forall_prop.mp (by decide)
  exact List.forall_mem_append.mpr ⟨front, plain_name exact⟩

/-- A declaration begins with no blank and with no hash. -/
theorem head_opening : ∃ c rest, opening lead name = c :: rest ∧ isBlank c = false ∧ c ≠ '#' := by
  rcases known with rfl | rfl
  · obtain ⟨c, rest, e, head, -⟩ := Name.exact_iff.mp exact
    refine ⟨c, rest ++ ['='], by rw [opening, e]; rfl,
      Name.isBlank_of_isTail (Name.isTail_of_isHead head), ?_⟩
    rintro rfl
    exact absurd head (by decide)
  · exact ⟨'e', _, rfl, rfl, by decide⟩

theorem trim_quotedDeclaration (q : Char) (text said : String) :
    trim (quotedDeclaration lead name q text said) =
      opening lead name ++ q :: (text.toList ++ [q, ' ']) ++
        '#' :: trimRight (' ' :: said.toList) := by
  obtain ⟨c, rest, e, shown, -⟩ := head_opening exact known
  rw [quotedDeclaration, e, List.cons_append, List.cons_append, trim_cons shown,
    trimRight_append rfl]
  rfl

/-- A quoted declaration with a comment is read as the entry that it is written for just when the
text has an even number of either quote. -/
theorem parseLine_quoted_iff (quote : isQuote q = true) (other : q ∉ text.toList)
    (feedless : '\n' ∉ text.toList) (heard : trim said.toList ≠ []) (number : Nat) :
    parseLine (quotedDeclaration lead name q text said) number =
        some { name, value := if text == "" || isPlaceholder text then none else some text
               comment := some (trimmed said), line := number } ↔
      ∀ p, isQuote p = true → Even (text.toList.count p) := by
  have plain := plain_opening exact known
  have whole := trim_quotedDeclaration exact known q text said
  have behind : trim (trimRight (' ' :: said.toList)) = trim said.toList := trim_trimRight _
  rw [← opens_quoted_iff plain]
  constructor
  · intro parsed
    obtain ⟨_, _, comment, declares, entry⟩ := parseLine_eq_some.mp parsed
    obtain ⟨w, cut, -⟩ := declares.binds
    obtain ⟨after, rfl, same, -⟩ := noted_eq_some.mp (congrArg Entry.comment entry)
    rw [trimmed, String.toList_ofList, ← behind] at same
    -- what was said is the whole comment, so the cut is neither inside the quotes nor further on
    cases cut with
    | hash split opens =>
      rcases split_cases (whole.symm.trans split) with
        ⟨rfl, -, -⟩ | ⟨between, inside, -⟩ | ⟨between, -, later⟩
      · exact opens
      · exact absurd opens (not_opens_between plain quote other inside)
      · exact absurd (later ▸ same) (trim_ne_behind_hash between after)
  · intro opens
    obtain ⟨c, rest, e, -, shown⟩ := head_opening exact known
    have cut : Cut (trim (quotedDeclaration lead name q text said))
        (opening lead name ++ q :: (text.toList ++ [q, ' ']))
        (some (trimRight (' ' :: said.toList))) :=
      .hash whole opens fun sooner rest => not_opens_between plain quote other
    refine parseLine_eq_some.mpr ⟨name, q :: (text.toList ++ [q, ' ']), _,
      ⟨?_, ?_, exact, ⟨_, cut, binds_opening known _⟩, ?_⟩, ?_⟩
    · simp [whole]
    · simpa [whole, e] using shown
    · rw [trim_quoted quote]
      have other : '\n' ≠ q := by
        rintro rfl
        exact absurd quote (by decide)
      simp [other, feedless]
    · have note : noted (some (trimRight (' ' :: said.toList))) = some (trimmed said) :=
        noted_eq_some.mpr ⟨_, rfl, by rw [trimmed, String.toList_ofList, behind],
          by rwa [trimmed, String.toList_ofList]⟩
      rw [entryOf, parseValue_quoted quote, note]

end Declaration

theorem parseLine_quoted_exportedTitle :
    Name.Exact "TITLE" ∧ isQuote '"' = true ∧ '"' ∉ "it's #1, isn't it".toList ∧
      '\n' ∉ "it's #1, isn't it".toList ∧ trim " said".toList ≠ [] ∧
      parseLine (quotedDeclaration "export " "TITLE" '"' "it's #1, isn't it" " said") 3 =
        some { name := "TITLE", value := some "it's #1, isn't it"
               comment := some "said", line := 3 } := by
  have exact : Name.Exact "TITLE" := by decide
  have quote : isQuote '"' = true := rfl
  have other : '"' ∉ "it's #1, isn't it".toList := by decide
  have feedless : '\n' ∉ "it's #1, isn't it".toList := by decide
  have heard : trim " said".toList ≠ [] := by decide
  have even : ∀ p, isQuote p = true → Even ("it's #1, isn't it".toList.count p) := by
    intro p quote
    rcases isQuote_iff.mp quote with rfl | rfl <;> decide
  have parsed := (parseLine_quoted_iff exact (Or.inr rfl) quote other feedless heard 3).mpr even
  have real : (if "it's #1, isn't it" == "" || isPlaceholder "it's #1, isn't it"
      then none else some "it's #1, isn't it") = some "it's #1, isn't it" := by decide
  have said : trimmed " said" = "said" := by decide
  rw [real, said] at parsed
  exact ⟨exact, quote, other, feedless, heard, parsed⟩

/-- Behind a single apostrophe between double quotes, the comment is taken for a part of the value.
-/
theorem apostrophe_hides_comment :
    Name.Exact "A" ∧ isQuote '"' = true ∧ '"' ∉ "it's".toList ∧ '\n' ∉ "it's".toList ∧
      trim "note".toList ≠ [] ∧
      parseLine (quotedDeclaration "" "A" '"' "it's" "note") =
        some { name := "A", value := some "\"it's\" # note" } ∧
      parseLine (quotedDeclaration "" "A" '"' "it's" "note") ≠
        some { name := "A", value := some "it's", comment := some "note" } := by
  have parsed : parseLine (quotedDeclaration "" "A" '"' "it's" "note") =
      some { name := "A", value := some "\"it's\" # note" } := by decide +kernel
  refine ⟨by decide, rfl, by decide, by decide, by decide, parsed, ?_⟩
  rw [parsed]
  decide

end EnvCensus.Dotenv
