import EnvCensus.Proofs.Dotenv

/-!
# One declaration

A line that begins with an exact name and an equals sign declares that name,
whatever follows on the line. What follows decides the value and the comment,
and there is a comment just when a hash stands outside quotes.
-/

namespace EnvCensus.Dotenv

open Text

variable {name : String} {c : Char} {cs w before after : List Char} {single double : Bool}

theorem declaration?_of_name (exact : Name.Exact name) (line : '\n' ∉ w) :
    declaration? (name.toList ++ '=' :: w) = some (name, trimLeft w) :=
  declaration?_eq_some.mpr ⟨exact, w, .plain (List.forall_mem_nil _), rfl,
    fun feed => line ((List.dropWhile_sublist _).subset feed)⟩

/-! ### Comments -/

/-- What is passed over on the way to a comment is what stands before it. -/
theorem commentStart_split (h : commentStart before single double cs = some (w, after)) :
    ∃ passed, cs = passed ++ '#' :: after ∧ w = before.reverse ++ passed := by
  induction cs generalizing before single double with
  | nil => cases h
  | cons c cs ih =>
    rw [commentStart] at h
    split at h
    · rename_i starts
      cases h
      simp only [Bool.and_eq_true, beq_iff_eq] at starts
      exact ⟨[], by rw [starts.1.1.1, List.nil_append], (List.append_nil _).symm⟩
    · obtain ⟨passed, rfl, rfl⟩ := ih h
      exact ⟨c :: passed, rfl, by simp⟩

/-- Without a hash there is no comment. -/
theorem commentStart_none (h : '#' ∉ cs) : commentStart before single double cs = none := by
  cases start : commentStart before single double cs with
  | none => rfl
  | some found =>
    obtain ⟨passed, e, -⟩ := commentStart_split start
    exact absurd (e ▸ by simp) h

/-- Between two double quotes and no further ones there is no comment. -/
theorem commentStart_quoted (h : '"' ∉ cs) :
    commentStart before single false (cs ++ ['"']) = none := by
  induction cs generalizing before single with
  | nil => simp [commentStart]
  | cons c cs ih =>
    obtain ⟨other, h⟩ := not_or.mp (fun e => h (List.mem_cons.mpr e))
    have inside : (false != (c == '"')) = false := by simp [Ne.symm other]
    rw [List.cons_append, commentStart, if_neg (by simp), inside]
    exact ih h

/-- Characters that neither open a comment nor quote are passed over. -/
theorem commentStart_plain (plain : ∀ c ∈ cs, c ≠ '#' ∧ isQuote c = false) (w : List Char) :
    commentStart before single double (cs ++ w) =
      commentStart (cs.reverse ++ before) single double w := by
  induction cs generalizing before with
  | nil => rfl
  | cons c cs ih =>
    obtain ⟨⟨hash, unquoted⟩, plain⟩ := List.forall_mem_cons.mp plain
    obtain ⟨double, single⟩ := Bool.or_eq_false_iff.mp unquoted
    rw [List.cons_append, commentStart, if_neg (by simp [hash]), single, double, Bool.bne_false,
      Bool.bne_false]
    rw [ih plain, List.reverse_cons, List.append_assoc]
    rfl

/-- The search for a comment begins after the equals sign. -/
theorem commentStart_binding (exact : Name.Exact name) (w : List Char) :
    commentStart [] true true (name.toList ++ '=' :: w) =
      commentStart ('=' :: name.toList.reverse) true true w := by
  have passed : commentStart [] true true ((name.toList ++ ['=']) ++ w) = _ :=
    commentStart_plain (plain_name exact) w
  simpa using passed

theorem trim_binding (exact : Name.Exact name) (w : List Char) :
    trim (name.toList ++ '=' :: w) = name.toList ++ '=' :: trimRight w := by
  obtain ⟨c, rest, e, head, -⟩ := Name.exact_iff.mp exact
  rw [e, List.cons_append, trim_cons (Name.isBlank_of_isTail (Name.isTail_of_isHead head)),
    trimRight_append rfl, List.cons_append]

/-- What is left of a declaration without its comment: all of it, or up to the hash. -/
theorem splitComment_binding (exact : Name.Exact name) (w : List Char) :
    (commentStart ('=' :: name.toList.reverse) true true w = none ∧
      splitComment (name.toList ++ '=' :: w) = (name.toList ++ '=' :: w, none)) ∨
    ∃ value after, w = value ++ '#' :: after ∧
      commentStart ('=' :: name.toList.reverse) true true w =
        some (name.toList ++ '=' :: value, after) ∧
      splitComment (name.toList ++ '=' :: w) =
        (name.toList ++ '=' :: trimRight value, some (trim after)) := by
  unfold splitComment
  rw [commentStart_binding exact]
  cases start : commentStart ('=' :: name.toList.reverse) true true w with
  | none => exact Or.inl ⟨rfl, rfl⟩
  | some found =>
    obtain ⟨value, e, front⟩ := commentStart_split start
    have front : found.1 = name.toList ++ '=' :: value := by simpa using front
    refine Or.inr ⟨value, found.2, e, by rw [← front], ?_⟩
    simp only [front, trim_binding exact]

/-! ### The line -/

theorem parseValue_trimLeft (cs : List Char) : parseValue (trimLeft cs) = parseValue cs := by
  rw [parseValue, parseValue, trim_trimLeft]

/-- The entry of a line by what is left of it without its comment. -/
theorem parseLine_split (exact : Name.Exact name) {u : List Char} {comment : Option (List Char)}
    (split : splitComment (name.toList ++ '=' :: trimRight w) = (name.toList ++ '=' :: u, comment))
    (line : '\n' ∉ u) (number : Nat) :
    parseLine (name.toList ++ '=' :: w) number =
      some { name, value := parseValue u, line := number
             comment := (comment.filter (· ≠ [])).map String.ofList } := by
  obtain ⟨c, rest, e, head, -⟩ := Name.exact_iff.mp exact
  have skipped : ((name.toList ++ '=' :: trimRight w).isEmpty ||
      (name.toList ++ '=' :: trimRight w).head? == some '#') = false := by
    have other : c ≠ '#' := by
      rintro rfl
      exact absurd head (by decide)
    simp [e, other]
  simp only [parseLine, trim_binding exact, skipped, split, declaration?_of_name exact line,
    Bool.false_eq_true, if_false, Option.map_some, parseValue_trimLeft]

/-- Without a comment, what follows the equals sign decides the value. -/
theorem parseLine_uncommented (exact : Name.Exact name) (line : '\n' ∉ w)
    (bare : commentStart ('=' :: name.toList.reverse) true true (trimRight w) = none)
    (number : Nat) :
    parseLine (name.toList ++ '=' :: w) number =
      some { name, value := parseValue (trimRight w), line := number } := by
  rcases splitComment_binding exact (trimRight w) with ⟨-, split⟩ | ⟨value, after, -, start, -⟩
  · exact parseLine_split exact split (fun feed => line (mem_of_mem_trimRight feed)) number
  · rw [bare] at start
    cases start

/-- With a comment, the entry has it unless it is blank. -/
theorem parseLine_commented (exact : Name.Exact name) (line : '\n' ∉ w) {front after : List Char}
    (start : commentStart ('=' :: name.toList.reverse) true true (trimRight w) =
      some (front, after)) (number : Nat) :
    ∃ value, parseLine (name.toList ++ '=' :: w) number =
      some { name, value, line := number
             comment := ((some (trim after)).filter (· ≠ [])).map String.ofList } := by
  rcases splitComment_binding exact (trimRight w) with ⟨none, -⟩ | ⟨value, after', e, start', split⟩
  · rw [start] at none
    cases none
  · cases start.symm.trans start'
    refine ⟨_, parseLine_split exact split (fun feed => line ?_) number⟩
    have inside : '\n' ∈ trimRight w := by
      rw [e]
      exact List.mem_append_left _ (mem_of_mem_trimRight feed)
    exact mem_of_mem_trimRight inside

/-- A line that begins with an exact name and an equals sign declares the name. -/
theorem parseLine_binding (exact : Name.Exact name) (line : '\n' ∉ w) (number : Nat) :
    ∃ e, parseLine (name.toList ++ '=' :: w) number = some e ∧ e.name = name := by
  cases start : commentStart ('=' :: name.toList.reverse) true true (trimRight w) with
  | none => exact ⟨_, parseLine_uncommented exact line start number, rfl⟩
  | some found =>
    obtain ⟨value, parsed⟩ := parseLine_commented exact line start number
    exact ⟨_, parsed, rfl⟩

/-- The value is one word, which is read as it stands. -/
structure Word (value : String) : Prop where
  nonempty : value ≠ ""
  real : isPlaceholder value = false
  plain : ∀ c ∈ value.toList, isBlank c = false ∧ isQuote c = false ∧ c ≠ '#'

/-- A word after an exact name and an equals sign is the value of the name. -/
theorem parseLine_word {value : String} (exact : Name.Exact name) (word : Word value)
    (number : Nat) : parseLine (name ++ "=" ++ value).toList number =
      some { name, value := some value, line := number } := by
  have whole : trim value.toList = value.toList :=
    trim_of_no_blank fun c hc => (word.plain c hc).1
  have feedless : '\n' ∉ value.toList := by
    intro feed
    have blank := (word.plain _ feed).1
    cases blank
  have bare : commentStart ('=' :: name.toList.reverse) true true (trimRight value.toList) =
      none := by
    rw [trimRight_of_trim whole]
    exact commentStart_none fun hash => (word.plain _ hash).2.2 rfl
  have given : parseValue (trimRight value.toList) = some value := by
    rw [trimRight_of_trim whole, parseValue, whole,
      stripQuotes_plain fun c hc => (word.plain c hc).2.1, String.ofList_toList]
    simp [word.nonempty, word.real]
  have parsed := parseLine_uncommented exact feedless bare number
  rw [given] at parsed
  simpa using parsed

end EnvCensus.Dotenv
