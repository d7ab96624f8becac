import EnvCensus.Proofs.Name
import EnvCensus.Shell

/-!
# Names that a script assigns

A line assigns a name directly before an equals sign, perhaps behind the word
`export`, and declares the first name behind one of the declaring words and its
options. Both ways are stated by how such a line is written; what the reading of
the lines collects are just the names that some line gives in one of them.
-/

namespace EnvCensus.Shell

variable {cs name gap flags rest tail : List Char} {word : String} {line : List Char}
  {lines : List (List Char)}

/-! ### How lines are written -/

/-- One blank or more. -/
def Gap (cs : List Char) : Prop := cs ≠ [] ∧ ∀ c ∈ cs, Text.isBlank c = true

/-- The line begins with an assignment to the name. -/
inductive Assigns (name : List Char) : List Char → Prop
  | plain {value : List Char} : Assigns name (name ++ '=' :: value)
  | exported {gap value : List Char} (apart : Gap gap) :
      Assigns name ("export".toList ++ (gap ++ (name ++ '=' :: value)))

/-- Options of a declaration, each with the blanks behind it. -/
inductive Flags : List Char → Prop
  | none : Flags []
  | more {letters gap flags : List Char} (some : letters ≠ [])
      (letter : ∀ c ∈ letters, c.isAlpha = true) (apart : Gap gap) (others : Flags flags) :
      Flags ('-' :: (letters ++ (gap ++ flags)))

/-- The line begins with a declaration behind the word, and the name is the first that is declared.
-/
inductive Declares (word : String) (name : List Char) : List Char → Prop
  | first {gap flags rest : List Char} (apart : Gap gap) (options : Flags flags)
      (longest : ∀ c ∈ rest.head?, Name.isTail c = false) :
      Declares word name (word.toList ++ (gap ++ (flags ++ (name ++ rest))))

/-- The line, without the blanks at its ends, assigns or declares the name. -/
def Sets (name : String) (line : List Char) : Prop :=
  Assigns name.toList (Text.trim line) ∨
    ∃ word ∈ declarators, Declares word name.toList (Text.trim line)

/-! ### Words and blanks -/

/-- What is left when blanks are passed is the text behind a gap. -/
theorem passes_gap_iff : (∃ c more, cs = c :: more ∧ Text.isBlank c = true ∧
      Text.trimLeft more = rest) ↔
    ∃ gap, Gap gap ∧ cs = gap ++ rest ∧ ∀ c ∈ rest.head?, Text.isBlank c = false := by
  constructor
  · rintro ⟨c, more, rfl, blank, rfl⟩
    refine ⟨c :: more.takeWhile Text.isBlank, ⟨List.cons_ne_nil _ _, ?_⟩, ?_,
      Text.head?_dropWhile _ more⟩
    · exact List.forall_mem_cons.mpr ⟨blank, fun d => List.mem_takeWhile_imp⟩
    · rw [List.cons_append, Text.trimLeft, List.takeWhile_append_dropWhile]
  · rintro ⟨gap, ⟨some, blank⟩, rfl, stop⟩
    obtain ⟨c, gap, rfl⟩ := List.exists_cons_of_ne_nil some
    obtain ⟨first, others⟩ := List.forall_mem_cons.mp blank
    exact ⟨c, gap ++ rest, rfl, first, (Text.takeWhile_run others stop).2⟩

theorem afterWord?_eq_some : afterWord? word cs = some rest ↔
    ∃ gap, Gap gap ∧ cs = word.toList ++ (gap ++ rest) ∧
      ∀ c ∈ rest.head?, Text.isBlank c = false := by
  have behind (tail : List Char) : afterWord? word (word.toList ++ tail) = some rest ↔
      ∃ c more, tail = c :: more ∧ Text.isBlank c = true ∧ Text.trimLeft more = rest := by
    have first : word.toList.isPrefixOf (word.toList ++ tail) = true :=
      List.isPrefixOf_iff_prefix.mpr (List.prefix_append _ _)
    have dropped : (word.toList ++ tail).drop word.length = tail := by
      rw [← String.length_toList, List.drop_left]
    rw [afterWord?, if_pos first, dropped]
    cases tail with
    | nil => simp
    | cons c more => cases blank : Text.isBlank c <;> simp [blank, and_assoc]
  constructor
  · intro h
    have first : word.toList <+: cs := by
      by_contra absent
      simp [afterWord?, absent] at h
    obtain ⟨tail, rfl⟩ := first
    obtain ⟨gap, apart, rfl, stop⟩ := passes_gap_iff.mp ((behind tail).mp h)
    exact ⟨gap, apart, rfl, stop⟩
  · rintro ⟨gap, apart, rfl, stop⟩
    exact (behind _).mpr (passes_gap_iff.mpr ⟨gap, apart, rfl, stop⟩)

theorem Gap.head? (apart : Gap gap) (rest : List Char) :
    ∃ c, (gap ++ rest).head? = some c ∧ Text.isBlank c = true := by
  obtain ⟨some, blank⟩ := apart
  obtain ⟨c, gap, rfl⟩ := List.exists_cons_of_ne_nil some
  exact ⟨c, rfl, blank c List.mem_cons_self⟩

theorem Gap.not_isTail (apart : Gap gap) (rest : List Char) :
    ∀ c ∈ (gap ++ rest).head?, Name.isTail c = false := by
  obtain ⟨d, first, blank⟩ := apart.head? rest
  intro c hc
  obtain rfl : d = c := Option.some.inj (first.symm.trans hc)
  by_contra tail
  rw [Bool.not_eq_false] at tail
  rw [Name.isBlank_of_isTail tail] at blank
  cases blank

/-- A word that is a name ends before a gap. -/
theorem split_word (exact : Name.Exact word) (apart : Gap gap) (rest : List Char) :
    Name.split (word.toList ++ (gap ++ rest)) = some (word.toList, gap ++ rest) :=
  Name.split_eq_some.mpr ⟨rfl, by rwa [String.ofList_toList], apart.not_isTail rest⟩

theorem not_blank_of_exact (exact : Name.Exact (String.ofList name)) (rest : List Char) :
    ∀ c ∈ (name ++ rest).head?, Text.isBlank c = false := by
  obtain ⟨c, first, head⟩ := exact.head? rest
  rw [first]
  rintro _ ⟨⟩
  exact Name.isBlank_of_isTail (Name.isTail_of_isHead head)

/-! ### Assignments -/

theorem assignedName?_eq_some : assignedName? cs = some name ↔
    Name.Exact (String.ofList name) ∧ ∃ value, cs = name ++ '=' :: value := by
  unfold assignedName?
  constructor
  · intro h
    split at h
    · rename_i split
      cases h
      obtain ⟨rfl, exact, -⟩ := Name.split_eq_some.mp split
      exact ⟨exact, _, rfl⟩
    · cases h
  · rintro ⟨exact, value, rfl⟩
    have split : Name.split (name ++ '=' :: value) = some (name, '=' :: value) :=
      Name.split_eq_some.mpr ⟨rfl, exact, by simp; decide⟩
    rw [split]
    rfl

theorem exportedName?_eq_some : (afterWord? "export" cs).bind assignedName? = some name ↔
    Name.Exact (String.ofList name) ∧
      ∃ gap value, Gap gap ∧ cs = "export".toList ++ (gap ++ (name ++ '=' :: value)) := by
  rw [Option.bind_eq_some_iff]
  constructor
  · rintro ⟨rest, word, assigned⟩
    obtain ⟨gap, apart, rfl, -⟩ := afterWord?_eq_some.mp word
    obtain ⟨exact, value, rfl⟩ := assignedName?_eq_some.mp assigned
    exact ⟨exact, gap, value, apart, rfl⟩
  · rintro ⟨exact, gap, value, apart, rfl⟩
    refine ⟨name ++ '=' :: value, afterWord?_eq_some.mpr ⟨gap, apart, rfl, ?_⟩,
      assignedName?_eq_some.mpr ⟨exact, value, rfl⟩⟩
    exact not_blank_of_exact exact _

theorem assignment?_eq_some : assignment? cs = some name ↔
    Name.Exact (String.ofList name) ∧ Assigns name cs := by
  have either : assignment? cs =
      ((afterWord? "export" cs).bind assignedName?).or (assignedName? cs) := by
    unfold assignment?
    cases (afterWord? "export" cs).bind assignedName? <;> rfl
  rw [either, Option.or_eq_some_iff, exportedName?_eq_some, assignedName?_eq_some]
  constructor
  · rintro (⟨exact, gap, value, apart, rfl⟩ | ⟨-, exact, value, rfl⟩)
    · exact ⟨exact, .exported apart⟩
    · exact ⟨exact, .plain⟩
  · rintro ⟨exact, assigns⟩
    cases assigns with
    | exported apart => exact Or.inl ⟨exact, _, _, apart, rfl⟩
    | @plain value =>
      refine Or.inr ⟨Option.eq_none_iff_forall_ne_some.mpr fun other h => ?_, exact, value, rfl⟩
      -- the word would be the name that is assigned, and an equals sign no blank
      obtain ⟨-, gap, value', apart, same⟩ := exportedName?_eq_some.mp h
      have word := split_word (show Name.Exact "export" by decide) apart (other ++ '=' :: value')
      have split : Name.split (name ++ '=' :: value) = some (name, '=' :: value) :=
        Name.split_eq_some.mpr ⟨rfl, exact, by simp; decide⟩
      rw [← same, split] at word
      obtain ⟨c, first, blank⟩ := apart.head? (other ++ '=' :: value')
      rw [← (Prod.mk.inj (Option.some.inj word)).2] at first
      cases first
      exact absurd blank (by decide)

theorem Assigns.split (h : Assigns name cs) (exact : Name.Exact (String.ofList name)) :
    ∃ word rest, Name.split cs = some (word, rest) := by
  cases h with
  | plain => exact ⟨_, _, Name.split_eq_some.mpr ⟨rfl, exact, by simp; decide⟩⟩
  | exported apart => exact ⟨_, _, split_word (show Name.Exact "export" by decide) apart _⟩

/-! ### Declarations -/

theorem exists_flags (n : Nat) (cs : List Char) :
    ∃ flags, Flags flags ∧ cs = flags ++ skipFlags n cs := by
  fun_induction skipFlags n cs with
  | case2 n rest letters c more cut option ih =>
    obtain ⟨flags, others, split⟩ := ih
    obtain ⟨some, blank⟩ : letters ≠ [] ∧ Text.isBlank c = true := by simpa using option
    obtain ⟨gap, apart, spaced, -⟩ := passes_gap_iff.mp ⟨c, more, rfl, blank, rfl⟩
    refine ⟨_, .more some (fun d => List.mem_takeWhile_imp) apart others, ?_⟩
    rw [List.cons_append, List.append_assoc, List.append_assoc, ← split, ← spaced, ← cut,
      List.takeWhile_append_dropWhile]
  | _ => exact ⟨[], .none, rfl⟩

theorem not_isAlpha_of_blank {c : Char} (blank : Text.isBlank c = true) : c.isAlpha = false := by
  by_contra alpha
  rw [Bool.not_eq_false] at alpha
  have tail : Name.isTail c = true := by simp [Name.isTail, Char.isAlphanum, alpha]
  rw [Name.isBlank_of_isTail tail] at blank
  cases blank

theorem Flags.not_blank (options : Flags flags)
    (stop : ∀ c ∈ tail.head?, Text.isBlank c = false) :
    ∀ c ∈ (flags ++ tail).head?, Text.isBlank c = false := by
  cases options with
  | none => exact stop
  | more =>
    rintro _ ⟨⟩
    rfl

theorem skipFlags_append (options : Flags flags) {n : Nat} (enough : flags.length ≤ n)
    (stop : ∀ c ∈ tail.head?, c ≠ '-' ∧ Text.isBlank c = false) :
    skipFlags n (flags ++ tail) = tail := by
  induction options generalizing n with
  | none =>
    unfold skipFlags
    split
    · rfl
    · split
      · rename_i dash
        rw [List.nil_append] at dash
        exact absurd rfl (stop '-' (by rw [dash]; rfl)).1
      · rfl
  | @more letters gap flags some letter apart others ih =>
    have next := others.not_blank fun c hc => (stop c hc).2
    obtain ⟨n, rfl⟩ : ∃ m, n = m + 1 := ⟨n - 1, by simp at enough; omega⟩
    obtain ⟨c, more, spaced, blank, passed⟩ := passes_gap_iff.mpr ⟨gap, apart, rfl, next⟩
    obtain ⟨taken, dropped⟩ := Text.takeWhile_run letter
      (show ∀ d ∈ (c :: more).head?, d.isAlpha = false by
        rintro _ ⟨⟩
        exact not_isAlpha_of_blank blank)
    have run : letters ++ (gap ++ flags) ++ tail = letters ++ (c :: more) := by
      rw [← spaced]
      simp
    rw [List.cons_append, run, skipFlags]
    simp only [taken, dropped, ne_eq, some, not_false_eq_true, decide_true, blank, Bool.and_self,
      if_true, passed]
    exact ih (by simp at enough; omega)

theorem declaredBehind_eq_some :
    ((afterWord? word cs).bind fun rest =>
        (Name.split (skipFlags rest.length rest)).map (·.1)) = some name ↔
      Name.Exact (String.ofList name) ∧ Declares word name cs := by
  rw [Option.bind_eq_some_iff]
  constructor
  · rintro ⟨behind, found, declared⟩
    obtain ⟨gap, apart, rfl, -⟩ := afterWord?_eq_some.mp found
    obtain ⟨⟨_, rest⟩, split, rfl⟩ := Option.map_eq_some_iff.mp declared
    obtain ⟨flags, options, cut⟩ := exists_flags behind.length behind
    obtain ⟨whole, exact, longest⟩ := Name.split_eq_some.mp split
    rw [cut, whole]
    exact ⟨exact, .first apart options longest⟩
  · rintro ⟨exact, @⟨gap, flags, rest, apart, options, longest⟩⟩
    obtain ⟨c, first, head⟩ := exact.head? rest
    have dash : ∀ c ∈ (name ++ rest).head?, c ≠ '-' := by
      rw [first]
      rintro _ ⟨⟩ rfl
      exact absurd head (by decide)
    have blank := not_blank_of_exact exact rest
    refine ⟨flags ++ (name ++ rest), afterWord?_eq_some.mpr
      ⟨gap, apart, rfl, options.not_blank blank⟩, ?_⟩
    rw [skipFlags_append options (by simp) fun c hc => ⟨dash c hc, blank c hc⟩,
      Name.split_eq_some.mpr ⟨rfl, exact, longest⟩]
    rfl

theorem exact_declarators : ∀ word ∈ declarators, Name.Exact word := by decide

theorem Declares.split (h : Declares word name cs) (exact : Name.Exact word) :
    ∃ rest, Name.split cs = some (word.toList, rest) := by
  obtain @⟨gap, flags, rest, apart, -, -⟩ := h
  exact ⟨_, split_word exact apart _⟩

/-- A line has one declaring word at most. -/
theorem Declares.word_unique {word' : String} {name' : List Char} (h : Declares word name cs)
    (h' : Declares word' name' cs) (exact : Name.Exact word) (exact' : Name.Exact word') :
    word = word' := by
  obtain ⟨rest, here⟩ := h.split exact
  obtain ⟨rest', there⟩ := h'.split exact'
  rw [here] at there
  exact String.toList_inj.mp (Prod.mk.inj (Option.some.inj there)).1

theorem declaration?_eq_some : declaration? cs = some name ↔
    Name.Exact (String.ofList name) ∧ ∃ word ∈ declarators, Declares word name cs := by
  constructor
  · intro h
    obtain ⟨word, known, declared⟩ := List.exists_of_findSome?_eq_some h
    obtain ⟨exact, declares⟩ := declaredBehind_eq_some.mp declared
    exact ⟨exact, word, known, declares⟩
  · rintro ⟨exact, word, known, declares⟩
    have declared := declaredBehind_eq_some.mpr ⟨exact, declares⟩
    cases h : declaration? cs with
    | none =>
      have nothing := List.findSome?_eq_none_iff.mp h word known
      rw [nothing] at declared
      cases declared
    | some other =>
      obtain ⟨word', known', declared'⟩ := List.exists_of_findSome?_eq_some h
      obtain rfl := declares.word_unique (declaredBehind_eq_some.mp declared').2
        (exact_declarators _ known) (exact_declarators _ known')
      exact declared'.symm.trans declared

/-! ### The names of a script -/

theorem isCode_iff : isCode line = true ↔ ∃ c rest, Text.trim line = c :: rest ∧ c ≠ '#' := by
  unfold isCode
  split
  · rename_i e
    simp [e]
  · rename_i c rest e
    simp [e]

/-- A line that assigns or declares a name begins with a word. -/
theorem Sets.split {name : String} (sets : Sets name line) (exact : Name.Exact name) :
    ∃ word rest, Name.split (Text.trim line) = some (word, rest) := by
  rcases sets with assigns | ⟨word, known, declares⟩
  · exact assigns.split (by rwa [String.ofList_toList])
  · obtain ⟨rest, split⟩ := declares.split (exact_declarators word known)
    exact ⟨_, rest, split⟩

theorem isCode_of_split {rest : List Char} {word : List Char}
    (h : Name.split (Text.trim line) = some (word, rest)) : isCode line = true := by
  obtain ⟨whole, exact, -⟩ := Name.split_eq_some.mp h
  obtain ⟨c, first, head⟩ := exact.head? rest
  rw [← whole] at first
  obtain ⟨more, e⟩ := List.head?_eq_some_iff.mp first
  refine isCode_iff.mpr ⟨c, more, e, ?_⟩
  rintro rfl
  exact absurd head (by decide)

/-- What is collected are the names that some line of the script assigns or declares. -/
theorem mem_assignedNames {name : String} : name ∈ assignedNames lines ↔
    Name.Exact name ∧ ∃ line ∈ lines, Sets name line := by
  have here (cs : List Char) : name ∈ ((assignment? cs).toList ++
      (declaration? cs).toList).map String.ofList ↔ Name.Exact name ∧
        (Assigns name.toList cs ∨ ∃ word ∈ declarators, Declares word name.toList cs) := by
    have spelled (o : Option (List Char)) :
        name ∈ o.toList.map String.ofList ↔ o = some name.toList := by
      cases o with
      | none => simp
      | some n => simp [String.ext_iff, eq_comm]
    rw [List.map_append, List.mem_append, spelled, spelled, assignment?_eq_some,
      declaration?_eq_some, String.ofList_toList, and_or_left]
  simp only [assignedNames, List.mem_flatMap, List.mem_filter, here]
  constructor
  · rintro ⟨line, ⟨mem, -⟩, exact, sets⟩
    exact ⟨exact, line, mem, sets⟩
  · rintro ⟨exact, line, mem, sets⟩
    obtain ⟨word, rest, split⟩ := sets.split exact
    exact ⟨line, ⟨mem, isCode_of_split split⟩, exact, sets⟩

end EnvCensus.Shell
