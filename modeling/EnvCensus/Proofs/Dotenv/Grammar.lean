import EnvCensus.Dotenv
import EnvCensus.Proofs.Shell.Assignments
import EnvCensus.Proofs.Text.Blank
import Mathlib.Algebra.Group.Nat.Even

/-!
# Lines that declare

How the line of a declaration file is written: it is cut at the first hash
outside quotes, and what is left is a name, perhaps behind the word `export`,
with an equals sign and a value. Quotes are told from one another by their
numbers alone. A line is read as an entry just when it is written so, and the
entry says what the parts of the line say.
-/

namespace EnvCensus.Dotenv

open Shell (Gap afterWord?)
open Text

variable {name : String} {cs w rest front after line : List Char} {c : Char}
  {comment : Option (List Char)}

/-! ### Where the comment begins -/

/-- A hash behind the text opens a comment: some text stands before it, and there both quotes are
even in number. -/
def Opens (front : List Char) : Prop :=
  front ≠ [] ∧ Even (front.count '\'') ∧ Even (front.count '"')

/-- The line up to its comment, and what follows the hash if there is one. -/
inductive Cut (line : List Char) : List Char → Option (List Char) → Prop
  | hash {front after : List Char} (split : line = front ++ '#' :: after) (opens : Opens front)
      (first : ∀ sooner rest, front = sooner ++ '#' :: rest → ¬ Opens sooner) :
      Cut line front (some after)
  | uncut (closed : ∀ front after, line = front ++ '#' :: after → ¬ Opens front) :
      Cut line line none

theorem even_count_concat (q c : Char) (front : List Char) :
    decide (Even ((front ++ [c]).count q)) = (decide (Even (front.count q)) != (c == q)) := by
  by_cases same : c = q
  · subst same
    rw [List.count_append, List.count_singleton_self, beq_self_eq_true, Bool.bne_true, ← decide_not]
    exact decide_eq_decide.mpr Nat.even_add_one
  · simp [same, beq_false_of_ne same, List.count_append]

/-- The search for a comment goes on behind the text that was passed. -/
theorem commentStart_eq_some : commentStart front.reverse (decide (Even (front.count '\'')))
      (decide (Even (front.count '"'))) cs = some (w, after) ↔
    ∃ passed, cs = passed ++ '#' :: after ∧ w = front ++ passed ∧ Opens w ∧
      ∀ sooner rest, passed = sooner ++ '#' :: rest → ¬ Opens (front ++ sooner) := by
  -- the two flags are the parities of the quotes in what was passed, and stay so
  induction cs generalizing front with
  | nil => simp [commentStart]
  | cons c cs ih =>
    have opens_iff : (c == '#' && !front.reverse.isEmpty && decide (Even (front.count '\'')) &&
        decide (Even (front.count '"'))) = true ↔ c = '#' ∧ Opens front := by
      simp [Opens, and_assoc]
    rw [commentStart]
    split
    · rename_i starts
      obtain ⟨rfl, opens⟩ := opens_iff.mp starts
      rw [List.reverse_reverse, Option.some.injEq, Prod.mk.injEq]
      constructor
      · rintro ⟨rfl, rfl⟩
        exact ⟨[], rfl, by simp, opens, by simp⟩
      · rintro ⟨passed, split, rfl, -, first⟩
        cases passed with
        | nil => simpa using split
        | cons d passed =>
          obtain ⟨rfl, -⟩ := List.cons.inj split
          have free := first [] passed rfl
          rw [List.append_nil] at free
          exact absurd opens free
    · rename_i goesOn
      have step := @ih (front ++ [c])
      rw [even_count_concat, even_count_concat, List.reverse_append, List.reverse_singleton,
        List.singleton_append] at step
      rw [step]
      constructor
      · rintro ⟨passed, rfl, rfl, opens, first⟩
        refine ⟨c :: passed, rfl, by simp, by simpa using opens, fun sooner rest split => ?_⟩
        cases sooner with
        | nil =>
          obtain ⟨rfl, -⟩ := List.cons.inj split
          rw [List.append_nil]
          exact fun opens => goesOn (opens_iff.mpr ⟨rfl, opens⟩)
        | cons d sooner =>
          obtain ⟨rfl, behind⟩ := List.cons.inj split
          simpa using first sooner rest behind
      · rintro ⟨passed, split, rfl, opens, first⟩
        cases passed with
        | nil =>
          obtain ⟨rfl, -⟩ := List.cons.inj split
          rw [List.append_nil] at opens
          exact absurd (opens_iff.mpr ⟨rfl, opens⟩) goesOn
        | cons d passed =>
          obtain ⟨rfl, rfl⟩ := List.cons.inj split
          refine ⟨passed, rfl, by simp, opens, fun sooner rest e => ?_⟩
          simpa using first (c :: sooner) rest (congrArg (c :: ·) e)

theorem commentStart_line : commentStart [] true true line = some (w, after) ↔
    Cut line w (some after) := by
  have whole : commentStart [] true true line = some (w, after) ↔ _ :=
    @commentStart_eq_some line w [] after
  rw [whole]
  simp only [List.nil_append]
  constructor
  · rintro ⟨_, split, rfl, opens, first⟩
    exact .hash split opens first
  · intro cut
    cases cut with
    | hash split opens first => exact ⟨w, split, rfl, opens, first⟩

/-- Where some hash opens a comment, a first one does. -/
theorem Opens.exists_cut {front after : List Char} (opens : Opens front)
    (split : line = front ++ '#' :: after) : ∃ w rest, Cut line w (some rest) := by
  by_cases earlier : ∃ sooner rest, front = sooner ++ '#' :: rest ∧ Opens sooner
  · obtain ⟨sooner, rest, behind, opens⟩ := earlier
    have shorter : sooner.length < front.length := by simp [behind]
    exact opens.exists_cut (by simpa [behind] using split)
  · exact ⟨front, after, .hash split opens fun sooner rest e opens =>
      earlier ⟨sooner, rest, e, opens⟩⟩
termination_by front.length

/-- Every line has its cut. -/
theorem exists_cut (line : List Char) : ∃ w comment, Cut line w comment := by
  by_cases opened : ∃ front after, line = front ++ '#' :: after ∧ Opens front
  · obtain ⟨front, after, split, opens⟩ := opened
    obtain ⟨w, rest, cut⟩ := opens.exists_cut split
    exact ⟨w, some rest, cut⟩
  · exact ⟨line, none, .uncut fun front after split opens => opened ⟨front, after, split, opens⟩⟩

/-- The search finds the cut. -/
theorem Cut.commentStart_eq (cut : Cut line w comment) :
    commentStart [] true true line = comment.map (w, ·) := by
  cases comment with
  | some after => exact commentStart_line.mpr cut
  | none =>
    refine Option.eq_none_iff_forall_ne_some.mpr fun ⟨front, after⟩ start => ?_
    cases cut with
    | uncut closed =>
      cases commentStart_line.mp start with
      | hash split opens => exact closed _ _ split opens

theorem Cut.eq_of_uncut (cut : Cut line w none) : w = line := by
  cases cut
  rfl

theorem Cut.unique {w' : List Char} {comment' : Option (List Char)} (cut : Cut line w comment)
    (cut' : Cut line w' comment') : w = w' ∧ comment = comment' := by
  have same := cut.commentStart_eq.symm.trans cut'.commentStart_eq
  cases comment with
  | some after =>
    cases comment' with
    | some after' => simpa using same
    | none => cases same
  | none =>
    cases comment' with
    | some after' => cases same
    | none => exact ⟨cut.eq_of_uncut.trans cut'.eq_of_uncut.symm, rfl⟩

/-- What is left of a line without its comment is trimmed, and so is the comment. -/
theorem Cut.splitComment_eq (cut : Cut line w comment) (trimmed : trim line = line) :
    splitComment line = (trim w, comment.map trim) := by
  rw [splitComment, cut.commentStart_eq]
  cases comment with
  | some after => rfl
  | none => rw [cut.eq_of_uncut, trimmed]; rfl

/-- What is left of a cut line begins as the line does. -/
theorem Cut.trimLeft_eq (cut : Cut line w comment) (front : trimLeft line = line) :
    trimLeft w = w := by
  cases cut with
  | hash split => exact trimLeft_of_append (split ▸ front)
  | uncut => exact front

/-! ### The declaration itself -/

/-- A name with an equals sign behind it, blanks before the sign or not, and then the rest; the word
`export` may stand before the name, with a gap. -/
inductive Binds (name : List Char) (rest : List Char) : List Char → Prop
  | plain {blanks : List Char} (blank : ∀ c ∈ blanks, isBlank c = true) :
      Binds name rest (name ++ (blanks ++ '=' :: rest))
  | exported {gap blanks : List Char} (apart : Gap gap) (blank : ∀ c ∈ blanks, isBlank c = true) :
      Binds name rest ("export".toList ++ (gap ++ (name ++ (blanks ++ '=' :: rest))))

variable {word word' rest' blanks behind raw : List Char}

theorem afterExport?_eq (cs : List Char) : afterExport? cs = afterWord? "export" cs := by
  by_cases exported : "export".toList <+: cs
  · obtain ⟨tail, rfl⟩ := exported
    cases tail with
    | nil => rfl
    | cons c rest => rfl
  · rw [afterWord?, if_neg (by simpa using exported)]
    unfold afterExport?
    split
    · rename_i c rest
      exact absurd ⟨c :: rest, rfl⟩ exported
    · rfl

/-- A name and the equals sign behind it have neither hashes nor quotes. -/
theorem plain_name (exact : Name.Exact name) :
    ∀ c ∈ name.toList ++ ['='], c ≠ '#' ∧ isQuote c = false := by
  refine List.forall_mem_append.mpr ⟨fun c hc => ?_, List.forall_mem_singleton.mpr (by decide)⟩
  have tail := exact.isTail hc
  refine ⟨?_, ?_⟩
  · rintro rfl
    exact absurd tail (by decide)
  · by_contra quote
    rcases isQuote_iff.mp (eq_true_of_ne_false quote) with rfl | rfl <;>
      exact absurd tail (by decide)

/-- Behind blanks and an equals sign nothing belongs to the name before them. -/
theorem split_sign (exact : Name.Exact (String.ofList word))
    (blank : ∀ c ∈ blanks, isBlank c = true) (rest : List Char) :
    Name.split (word ++ (blanks ++ '=' :: rest)) = some (word, blanks ++ '=' :: rest) := by
  refine Name.split_eq_some.mpr ⟨rfl, exact, fun c hc => ?_⟩
  cases blanks with
  | nil =>
    cases hc
    decide
  | cons b blanks =>
    cases hc
    by_contra tail
    have notBlank := Name.isBlank_of_isTail (eq_true_of_ne_false tail)
    rw [blank c List.mem_cons_self] at notBlank
    cases notBlank

theorem trimLeft_sign (blank : ∀ c ∈ blanks, isBlank c = true) (rest : List Char) :
    trimLeft (blanks ++ '=' :: rest) = '=' :: rest :=
  (trimLeft_eq_cons_iff rfl).mpr ⟨blanks, blank, rfl⟩

/-- Where the word `export` is the name itself, no name follows it. -/
theorem afterWord?_sign (exact : Name.Exact (String.ofList word))
    (blank : ∀ c ∈ blanks, isBlank c = true)
    (h : afterWord? "export" (word ++ (blanks ++ '=' :: rest)) = some behind) :
    behind = '=' :: rest := by
  obtain ⟨gap, apart, same, stop⟩ := Shell.afterWord?_eq_some.mp h
  have exported := Shell.split_word (show Name.Exact "export" by decide) apart behind
  rw [← same, split_sign exact blank] at exported
  have tails := (Prod.mk.inj (Option.some.inj exported)).2
  have trimmed := trimLeft_sign blank rest
  rw [tails, trimLeft, (takeWhile_run apart.2 stop).2] at trimmed
  exact trimmed

theorem binding?_eq_some : binding? cs = some (name, raw) ↔ Name.Exact name ∧
    ∃ blanks rest, (∀ c ∈ blanks, isBlank c = true) ∧ cs = name.toList ++ (blanks ++ '=' :: rest) ∧
      raw = trimLeft rest ∧ '\n' ∉ raw := by
  constructor
  · intro h
    obtain ⟨⟨word, tail⟩, split, bound⟩ := Option.bind_eq_some_iff.mp h
    obtain ⟨rfl, exact, -⟩ := Name.split_eq_some.mp split
    simp only at bound
    split at bound
    · rename_i rest sign
      split at bound
      · cases bound
      · rename_i feedless
        cases bound
        obtain ⟨blanks, blank, rfl⟩ := (trimLeft_eq_cons_iff rfl).mp sign
        exact ⟨exact, blanks, rest, blank, by simp, rfl, by simpa using feedless⟩
    · cases bound
  · rintro ⟨exact, blanks, rest, blank, rfl, rfl, feedless⟩
    rw [← String.ofList_toList (s := name)] at exact
    have kept : (trimLeft rest).contains '\n' = false := by simpa using feedless
    simp only [binding?, split_sign exact blank, Option.bind_eq_bind, Option.bind_some,
      trimLeft_sign blank, kept, Bool.false_eq_true, if_false, String.ofList_toList]

/-- A line declares what its grammar says: without `export` first, unless that leaves a name. -/
theorem declaration?_eq_some : declaration? cs = some (name, raw) ↔ Name.Exact name ∧
    ∃ rest, Binds name.toList rest cs ∧ raw = trimLeft rest ∧ '\n' ∉ raw := by
  have either : declaration? cs = ((afterWord? "export" cs).bind binding?).or (binding? cs) := by
    rw [declaration?, afterExport?_eq]
    cases (afterWord? "export" cs).bind binding? <;> rfl
  rw [either, Option.or_eq_some_iff, Option.bind_eq_some_iff]
  constructor
  · rintro (⟨behind, word, bound⟩ | ⟨-, bound⟩)
    · obtain ⟨gap, apart, rfl, -⟩ := Shell.afterWord?_eq_some.mp word
      obtain ⟨exact, blanks, rest, blank, rfl, left⟩ := binding?_eq_some.mp bound
      exact ⟨exact, rest, .exported apart blank, left⟩
    · obtain ⟨exact, blanks, rest, blank, rfl, left⟩ := binding?_eq_some.mp bound
      exact ⟨exact, rest, .plain blank, left⟩
  · rintro ⟨exact, rest, binds, left⟩
    have spelled : Name.Exact (String.ofList name.toList) := by rwa [String.ofList_toList]
    cases binds with
    | @exported gap blanks apart blank =>
      refine Or.inl ⟨name.toList ++ (blanks ++ '=' :: rest), Shell.afterWord?_eq_some.mpr
        ⟨gap, apart, rfl, Shell.not_blank_of_exact spelled _⟩, ?_⟩
      exact binding?_eq_some.mpr ⟨exact, blanks, rest, blank, rfl, left⟩
    | plain blank =>
      refine Or.inr ⟨?_, binding?_eq_some.mpr ⟨exact, _, rest, blank, rfl, left⟩⟩
      refine Option.eq_none_iff_forall_ne_some.mpr fun bound h => ?_
      obtain ⟨behind, word, bound⟩ := Option.bind_eq_some_iff.mp h
      rw [afterWord?_sign spelled blank word] at bound
      cases bound

/-- The name at the front of a text, and what follows the blanks behind it. -/
def named? (cs : List Char) : Option (List Char × List Char) :=
  (Name.split cs).map (Prod.map id trimLeft)

theorem named?_sign (exact : Name.Exact (String.ofList word))
    (blank : ∀ c ∈ blanks, isBlank c = true) (rest : List Char) :
    named? (word ++ (blanks ++ '=' :: rest)) = some (word, '=' :: rest) := by
  rw [named?, split_sign exact blank, Option.map_some, Prod.map_apply, trimLeft_sign blank]
  rfl

/-- Both ways of binding are told from one another by what follows the word `export`. -/
theorem Binds.named (h : Binds word rest cs) (exact : Name.Exact (String.ofList word)) :
    (named? cs = some (word, '=' :: rest) ∧
      ∀ behind, afterWord? "export" cs = some behind → named? behind = none) ∨
    ∃ behind, afterWord? "export" cs = some behind ∧ named? behind = some (word, '=' :: rest) := by
  cases h with
  | plain blank =>
    refine Or.inl ⟨named?_sign exact blank rest, fun behind word => ?_⟩
    rw [afterWord?_sign exact blank word]
    rfl
  | exported apart blank =>
    refine Or.inr ⟨_, Shell.afterWord?_eq_some.mpr ⟨_, apart, rfl, ?_⟩,
      named?_sign exact blank rest⟩
    exact Shell.not_blank_of_exact exact _

/-- A text binds one name, in one way. -/
theorem Binds.unique (h : Binds word rest cs) (h' : Binds word' rest' cs)
    (exact : Name.Exact (String.ofList word)) (exact' : Name.Exact (String.ofList word')) :
    word = word' ∧ rest = rest' := by
  rcases h.named exact with ⟨name, bare⟩ | ⟨behind, exported, name⟩
  · rcases h'.named exact' with ⟨name', -⟩ | ⟨behind, exported, name'⟩
    · simpa using name.symm.trans name'
    · rw [bare behind exported] at name'
      cases name'
  · rcases h'.named exact' with ⟨-, bare⟩ | ⟨behind', exported', name'⟩
    · rw [bare behind exported] at name
      cases name
    · cases exported.symm.trans exported'
      simpa using name.symm.trans name'

/-! ### Blanks at the end -/

theorem Binds.append (h : Binds word rest cs) (tail : List Char) :
    Binds word (rest ++ tail) (cs ++ tail) := by
  cases h with
  | plain blank => simpa using Binds.plain blank
  | exported apart blank => simpa using Binds.exported apart blank

theorem Binds.trimRight (h : Binds word rest cs) :
    Binds word (trimRight rest) (trimRight cs) := by
  cases h with
  | @plain blanks blank =>
    rw [← List.append_assoc, trimRight_append rfl, List.append_assoc]
    exact .plain blank
  | @exported gap blanks apart blank =>
    rw [← List.append_assoc, ← List.append_assoc, ← List.append_assoc, trimRight_append rfl,
      List.append_assoc, List.append_assoc, List.append_assoc]
    exact .exported apart blank

/-- Blanks at the end belong to the rest. -/
theorem binds_trim_iff (exact : Name.Exact (String.ofList word)) (front : trimLeft w = w) :
    Binds word rest' (trim w) ↔ ∃ rest, Binds word rest w ∧ Text.trimRight rest = rest' := by
  rw [trim, front]
  constructor
  · intro h
    obtain ⟨tail, cut⟩ := exists_trimRight w
    have whole : Binds word (rest' ++ tail) w := cut ▸ h.append tail
    exact ⟨rest' ++ tail, whole, (whole.trimRight.unique h exact exact).2⟩
  · rintro ⟨rest, binds, rfl⟩
    exact binds.trimRight

theorem declaration?_trim (front : trimLeft w = w) : declaration? (trim w) = some (name, raw) ↔
    Name.Exact name ∧ ∃ rest, Binds name.toList rest w ∧ raw = trim rest ∧ '\n' ∉ raw := by
  rw [declaration?_eq_some]
  refine and_congr_right fun exact => ?_
  rw [← String.ofList_toList (s := name)] at exact
  simp only [binds_trim_iff exact front]
  constructor
  · rintro ⟨_, ⟨rest, binds, rfl⟩, rfl, feedless⟩
    exact ⟨rest, binds, trimLeft_trimRight rest, feedless⟩
  · rintro ⟨rest, binds, rfl, feedless⟩
    exact ⟨_, ⟨rest, binds, rfl⟩, (trimLeft_trimRight rest).symm, feedless⟩

/-! ### Values and comments -/

/-- What the rest of a declaration gives for a value: what is left of it without the blanks at its
ends and without one layer of quotes, unless that is empty or only holds the place of a value. -/
inductive Gives (rest : List Char) : Option String → Prop
  | value {v : String} (unwrapped : Unwraps (trim rest) v.toList) (nonempty : v ≠ "")
      (real : isPlaceholder v = false) : Gives rest (some v)
  | nothing {v : String} (unwrapped : Unwraps (trim rest) v.toList)
      (held : v = "" ∨ isPlaceholder v = true) : Gives rest none

theorem parseValue_eq_iff {v : Option String} : parseValue rest = v ↔ Gives rest v := by
  have unwraps : Unwraps (trim rest) (String.ofList (stripQuotes (trim rest))).toList := by
    rw [String.toList_ofList]
    exact stripQuotes_eq_iff.mp rfl
  have only {u : String} (h : Unwraps (trim rest) u.toList) :
      String.ofList (stripQuotes (trim rest)) = u := by
    rw [stripQuotes_eq_iff.mpr h, String.ofList_toList]
  constructor
  · rintro rfl
    rw [parseValue]
    split
    · rename_i held
      exact .nothing unwraps (by simpa using held)
    · rename_i real
      obtain ⟨nonempty, real⟩ : String.ofList (stripQuotes (trim rest)) ≠ "" ∧
          isPlaceholder (String.ofList (stripQuotes (trim rest))) = false := by
        simpa only [Bool.or_eq_true, beq_iff_eq, not_or, Bool.not_eq_true] using real
      exact .value unwraps nonempty real
  · intro gives
    cases gives with
    | value unwrapped nonempty real => simp [parseValue, only unwrapped, nonempty, real]
    | nothing unwrapped held =>
      rcases held with rfl | held
      · simp [parseValue, only unwrapped]
      · simp [parseValue, only unwrapped, held]

theorem Gives.real {v : String} (h : Gives rest (some v)) : v ≠ "" ∧ isPlaceholder v = false := by
  cases h with
  | value _ nonempty real => exact ⟨nonempty, real⟩

/-- The comment that an entry has: the text behind the hash without the blanks at its ends, unless
nothing is left of it. -/
def noted (comment : Option (List Char)) : Option String :=
  ((comment.map trim).filter (· ≠ [])).map String.ofList

theorem noted_eq_some {v : String} : noted comment = some v ↔
    ∃ after, comment = some after ∧ trim after = v.toList ∧ v.toList ≠ [] := by
  cases comment with
  | none => simp [noted]
  | some after =>
    rw [noted, Option.map_some, Option.map_eq_some_iff]
    simp only [Option.filter_eq_some_iff, Option.some.injEq, decide_eq_true_eq, exists_eq_left']
    constructor
    · rintro ⟨_, ⟨rfl, heard⟩, rfl⟩
      rw [String.toList_ofList]
      exact ⟨rfl, heard⟩
    · rintro ⟨same, heard⟩
      exact ⟨v.toList, ⟨same, heard⟩, String.ofList_toList⟩

/-! ### The line -/

/-- The line, without the blanks at its ends, is not empty and no comment as a whole; cut at its
comment, it binds the name, and what follows the equals sign stands on one line. -/
structure Declares (line : List Char) (name : String) (rest : List Char)
    (comment : Option (List Char)) : Prop where
  written : trim line ≠ []
  shown : (trim line).head? ≠ some '#'
  exact : Name.Exact name
  binds : ∃ w, Cut (trim line) w comment ∧ Binds name.toList rest w
  feedless : '\n' ∉ trim rest

variable {number : Nat} {e : Entry}

/-- The entry of a declaration. -/
def entryOf (number : Nat) (name : String) (rest : List Char) (comment : Option (List Char)) :
    Entry :=
  { name, value := parseValue rest, comment := noted comment, line := number }

theorem entryOf_eq_iff : entryOf number name rest comment = e ↔
    e.name = name ∧ Gives rest e.value ∧ e.comment = noted comment ∧ e.line = number := by
  rw [← parseValue_eq_iff]
  constructor
  · rintro rfl
    exact ⟨rfl, rfl, rfl, rfl⟩
  · rintro ⟨rfl, value, note, rfl⟩
    rw [entryOf, value, ← note]

theorem entryOf_trim (number : Nat) (name : String) (rest : List Char)
    (comment : Option (List Char)) :
    entryOf number name (trim rest) comment = entryOf number name rest comment := by
  rw [entryOf, entryOf, parseValue, parseValue, trim_trim]

/-- What is left of a line without its comment decides what the line declares. -/
theorem parseLine_of_cut (cut : Cut (trim line) w comment) (written : trim line ≠ [])
    (shown : (trim line).head? ≠ some '#') (number : Nat) :
    parseLine line number = (declaration? (trim w)).map fun (name, raw) =>
      entryOf number name raw comment := by
  have opened : ((trim line).isEmpty || (trim line).head? == some '#') = false := by
    simp [written, shown]
  simp only [parseLine, opened, cut.splitComment_eq (trim_trim line), Bool.false_eq_true, if_false]
  rfl

theorem shown_of_parseLine (h : parseLine line number = some e) :
    trim line ≠ [] ∧ (trim line).head? ≠ some '#' := by
  have opened : ((trim line).isEmpty || (trim line).head? == some '#') = false := by
    by_contra hidden
    rw [parseLine, if_pos (eq_true_of_ne_false hidden)] at h
    cases h
  simpa using opened

theorem parseLine_eq_some : parseLine line number = some e ↔
    ∃ name rest comment, Declares line name rest comment ∧
      entryOf number name rest comment = e := by
  constructor
  · intro h
    obtain ⟨written, shown⟩ := shown_of_parseLine h
    obtain ⟨w, comment, cut⟩ := exists_cut (trim line)
    rw [parseLine_of_cut cut written shown, Option.map_eq_some_iff] at h
    obtain ⟨⟨name, raw⟩, declared, rfl⟩ := h
    obtain ⟨exact, rest, binds, rfl, feedless⟩ :=
      (declaration?_trim (cut.trimLeft_eq (trimLeft_trim line))).mp declared
    exact ⟨name, rest, comment, ⟨written, shown, exact, ⟨w, cut, binds⟩, feedless⟩,
      (entryOf_trim number name rest comment).symm⟩
  · rintro ⟨name, rest, comment, ⟨written, shown, exact, ⟨w, cut, binds⟩, feedless⟩, rfl⟩
    have declared := (declaration?_trim (cut.trimLeft_eq (trimLeft_trim line))).mpr
      ⟨exact, rest, binds, rfl, feedless⟩
    rw [parseLine_of_cut cut written shown, declared, Option.map_some]
    exact congrArg some (entryOf_trim number name rest comment)

theorem Declares.unique {name' : String} {comment' : Option (List Char)}
    (h : Declares line name rest comment) (h' : Declares line name' rest' comment') :
    name = name' ∧ rest = rest' ∧ comment = comment' := by
  obtain ⟨w, cut, binds⟩ := h.binds
  obtain ⟨w', cut', binds'⟩ := h'.binds
  obtain ⟨rfl, comments⟩ := cut.unique cut'
  have same := binds.unique binds' (by rw [String.ofList_toList]; exact h.exact)
    (by rw [String.ofList_toList]; exact h'.exact)
  exact ⟨String.toList_inj.mp same.1, same.2, comments⟩

/-- A line is read as an entry just when it declares a name. It declares one name then, with one
rest and one comment at most, and the entry has what they say; no value is empty or only holds the
place of one. -/
theorem parseLine_exact (line : List Char) (number : Nat) :
    ((∃ e, parseLine line number = some e) ↔ ∃ name rest comment, Declares line name rest comment) ∧
    (∀ name rest comment, Declares line name rest comment → ∀ name' rest' comment',
      Declares line name' rest' comment' → name = name' ∧ rest = rest' ∧ comment = comment') ∧
    (∀ e, parseLine line number = some e ↔ ∃ rest comment, Declares line e.name rest comment ∧
      Gives rest e.value ∧ e.comment = noted comment ∧ e.line = number) ∧
    ∀ e, parseLine line number = some e → ∀ v ∈ e.value, v ≠ "" ∧ isPlaceholder v = false := by
  have read (e : Entry) : parseLine line number = some e ↔ ∃ rest comment,
      Declares line e.name rest comment ∧ Gives rest e.value ∧ e.comment = noted comment ∧
        e.line = number := by
    simp only [parseLine_eq_some, entryOf_eq_iff]
    constructor
    · rintro ⟨_, rest, comment, declares, rfl, left⟩
      exact ⟨rest, comment, declares, left⟩
    · rintro ⟨rest, comment, declares, left⟩
      exact ⟨e.name, rest, comment, declares, rfl, left⟩
  refine ⟨⟨?_, ?_⟩, fun _ _ _ h _ _ _ => h.unique, read, fun e h v value => ?_⟩
  · rintro ⟨e, h⟩
    obtain ⟨rest, comment, declares, -⟩ := (read e).mp h
    exact ⟨e.name, rest, comment, declares⟩
  · rintro ⟨name, rest, comment, declares⟩
    exact ⟨_, parseLine_eq_some.mpr ⟨name, rest, comment, declares, rfl⟩⟩
  · obtain ⟨rest, comment, -, gives, -⟩ := (read e).mp h
    rw [Option.mem_def.mp value] at gives
    exact gives.real

end EnvCensus.Dotenv
