import EnvCensus.Proofs.Shell.References

/-!
# The references of a line, exactly

The references of a line are the only list of references that stand on the line,
end before the next one begins and leave none out but those that begin inside of
another. So the reading of a line is settled by how references are written. In
particular a clause ends with the first closing brace, also where that brace
stands between quotes.
-/

namespace EnvCensus.Shell

open Text (Unwraps isQuote stripQuotes stripQuotes_eq_iff stripQuotes_quoted)

variable {line before form after : List Char} {r : Reference} {rs ss : List Reference}
  {name text : String} {op q : Char}

/-! ### What a reference says -/

/-- The reference as it is spelled behind its dollar sign and before what follows on the line: a
bare name, the longest one there; a name in braces; or a name in braces with a clause, whose text
goes up to the first closing brace and loses one layer of quotes. -/
inductive Reference.Spelled : Reference → List Char → List Char → Prop
  | bare {name : String} {column : Nat} {after : List Char}
      (longest : ∀ c ∈ after.head?, Name.isTail c = false) :
      Spelled ⟨name, none, column⟩ name.toList after
  | braced {name : String} {column : Nat} {after : List Char} :
      Spelled ⟨name, none, column⟩ ('{' :: (name.toList ++ ['}'])) after
  | clause {name value : String} {column : Nat} {op : Char} {text after : List Char}
      (mark : op = '-' ∨ op = '=') (inside : '}' ∉ text)
      (unwrapped : Unwraps text value.toList) :
      Spelled ⟨name, some value, column⟩
        ('{' :: (name.toList ++ ':' :: op :: (text ++ ['}']))) after

theorem Reference.Stands.spelled (h : r.Stands line before form after) : r.Spelled form after := by
  obtain ⟨fallback, written, same⟩ := h.written
  obtain ⟨name, value, column⟩ := r
  cases written with
  | bare longest =>
    cases same
    exact .bare longest
  | braced =>
    cases same
    exact .braced
  | fallback mark inside =>
    cases same
    refine .clause mark inside ?_
    rw [String.toList_ofList]
    exact stripQuotes_eq_iff.mp rfl

/-! ### Reading from left to right -/

/-- The references that are found from left to right. Each stands on the line, begins before the
next one and ends before it, and wherever a dollar sign begins a reference to a name, one to that
name is found there, or the sign lies inside of another that is found. -/
structure Leftmost (line : List Char) (rs : List Reference) : Prop where
  each : ∀ r ∈ rs, ∃ before form after, r.Stands line before form after ∧ r.Spelled form after
  ordered : rs.Pairwise fun r s => r.column < s.column
  apart : rs.Pairwise (Reference.EndsBefore line)
  others : ∀ before name rest, line = before ++ '$' :: rest → before.getLast? ≠ some '\\' →
    Name.Exact (String.ofList name) → Begins name rest →
      (∃ r ∈ rs, r.name = String.ofList name ∧ r.column = before.length + 1) ∨
        ∃ s ∈ rs, s.Covers line before.length

/-- A reference on the line begins with its dollar sign. -/
theorem Reference.Stands.begins (h : r.Stands line before form after) :
    Begins r.name.toList (form ++ after) := by
  obtain ⟨fallback, written, -⟩ := h.written
  cases written with
  | bare longest => exact .bare longest
  | braced => simpa using Begins.braced
  | fallback mark => simpa using Begins.fallback mark

theorem leftmost_references (line : List Char) : Leftmost line (references line) where
  each r hr := by
    obtain ⟨before, form, after, stands⟩ := exists_stands hr
    exact ⟨before, form, after, stands, stands.spelled⟩
  ordered := (scans_references line).pairwise.imp Reference.EndsBefore.column_lt
  apart := (scans_references line).pairwise
  others := by
    rintro before name rest rfl unescaped exact begins
    obtain ⟨r, form, after, stands, named⟩ := begins.stands exact unescaped
    refine ((scans_references _).mem_or_covered rfl stands (Nat.zero_le _)).imp_left fun mem => ?_
    exact ⟨r, mem, named, stands.column⟩

/-- The reference stands somewhere on the line. -/
def Reference.OnLine (line : List Char) (r : Reference) : Prop :=
  ∃ before form after, r.Stands line before form after

theorem Leftmost.foundInOrder (h : Leftmost line rs) :
    FoundInOrder (Reference.OnLine line) (fun r s => s.Covers line (r.column - 1))
      Reference.column rs where
  valid r hr := by
    obtain ⟨before, form, after, stands, -⟩ := h.each r hr
    exact ⟨before, form, after, stands⟩
  ordered := h.ordered
  apart := h.apart.imp Reference.EndsBefore.not_covers
  others r := by
    rintro ⟨before, form, after, stands⟩
    have exact : Name.Exact (String.ofList r.name.toList) := by
      rw [String.ofList_toList]
      exact stands.exact
    have place : before.length = r.column - 1 := by rw [stands.column, Nat.add_sub_cancel]
    rcases h.others before _ _ stands.text stands.unescaped exact stands.begins with
      ⟨s, hs, -, column⟩ | covered
    · obtain ⟨before', form', after', there, -⟩ := h.each s hs
      have same := stands.unique_of_column there (stands.column.trans column.symm)
      exact Or.inl (same.1 ▸ hs)
    · exact Or.inr (place ▸ covered)

theorem Leftmost.unique (hr : Leftmost line rs) (hs : Leftmost line ss) : rs = ss :=
  FoundInOrder.unique (fun _ _ covers => Reference.Covers.column_lt covers) hr.foundInOrder
    hs.foundInOrder

/-- The references of a line are what is found on it from left to right. -/
theorem references_eq_iff : references line = rs ↔ Leftmost line rs := by
  have found := leftmost_references line
  constructor
  · rintro rfl
    exact found
  · exact found.unique

/-! ### Clauses between quotes -/

/-- A reference at the beginning of a line is the first that is found. Reading goes on behind it. -/
theorem Scans.of_first (scans : Scans line [] line rs) (h : r.Stands line [] form after) :
    ∃ others, rs = r :: others ∧ Scans line ('$' :: form) after others := by
  generalize e : line = cs at scans
  subst e
  cases scans with
  | done => cases h.text
  | found stands others =>
    obtain ⟨rfl, rfl⟩ := stands.unique h
    obtain rfl := List.append_cancel_left (List.cons.inj h.text).2
    exact ⟨_, rfl, others⟩
  | skip nothing => exact absurd h (nothing _ _ _)

/-- A line that is a braced reference with a clause, and the clause has the text between quotes. -/
def quotedClause (name : String) (op q : Char) (text : String) : List Char :=
  '$' :: '{' :: (name.toList ++ ':' :: op :: (q :: (text.toList ++ [q]) ++ ['}']))

section Clause

variable (exact : Name.Exact name) (mark : op = '-' ∨ op = '=')

include exact mark

/-- The clause goes on to the first closing brace, wherever that stands. -/
theorem stands_quotedClause {inner rest : List Char} (inside : '}' ∉ inner)
    (cut : q :: (text.toList ++ [q]) ++ ['}'] = inner ++ '}' :: rest) :
    Reference.Stands ⟨name, some (String.ofList (stripQuotes inner)), 1⟩
      (quotedClause name op q text) []
      ('{' :: (name.toList ++ ':' :: op :: (inner ++ ['}']))) rest where
  text := by simp [quotedClause, cut]
  unescaped := by simp
  exact := exact
  written := ⟨some inner, .fallback mark inside, rfl⟩
  column := rfl

/-- A clause between quotes is kept as a whole, without its quotes, just when it has no closing
brace. -/
theorem references_quotedClause_iff (quote : isQuote q = true) :
    references (quotedClause name op q text) = [⟨name, some text, 1⟩] ↔ '}' ∉ text.toList := by
  have noBrace : q ≠ '}' := by
    rintro rfl
    exact absurd quote (by decide)
  constructor
  · intro whole brace
    obtain ⟨front, back, e, inside⟩ := List.eq_append_cons_of_mem brace
    have inside : '}' ∉ q :: front := by simp [noBrace.symm, inside]
    have cut : q :: (text.toList ++ [q]) ++ ['}'] = (q :: front) ++ '}' :: (back ++ [q, '}']) := by
      simp [e]
    obtain ⟨others, found, -⟩ := (scans_references _).of_first
      (stands_quotedClause exact mark inside cut)
    have kept : stripQuotes (q :: front) = text.toList := by
      have first := (List.cons.inj (found.symm.trans whole)).1
      rw [← (Option.some.inj (Reference.mk.inj first).2.1), String.toList_ofList]
    exact inside ((stripQuotes_eq_iff.mp kept).subset brace)
  · intro inside
    have inside : '}' ∉ q :: (text.toList ++ [q]) := by simp [noBrace.symm, inside]
    obtain ⟨others, found, rest⟩ := (scans_references _).of_first
      (stands_quotedClause exact mark inside rfl)
    cases rest
    rw [found, ← List.cons_append, stripQuotes_quoted quote, String.ofList_toList]

end Clause

theorem references_quotedClause_nested :
    Name.Exact "URL" ∧ isQuote '\'' = true ∧
      references (quotedClause "URL" '=' '\'' "say \"$HOME\" #1 to $\x7bUSER") =
        [⟨"URL", some "say \"$HOME\" #1 to $\x7bUSER", 1⟩] := by
  have exact : Name.Exact "URL" := by decide
  have quote : isQuote '\'' = true := rfl
  exact ⟨exact, quote, (references_quotedClause_iff exact (Or.inr rfl) quote).mpr (by decide)⟩

/-- A closing brace between the quotes ends the clause, and what is left of it keeps its quote. -/
theorem quotedBrace_ends_clause :
    Name.Exact "N" ∧ isQuote '"' = true ∧ '"' ∉ "a\x7db".toList ∧ '\\' ∉ "a\x7db".toList ∧
      '\n' ∉ "a\x7db".toList ∧
      references (quotedClause "N" '-' '"' "a\x7db") = [⟨"N", some "\"a", 1⟩] ∧
      references (quotedClause "N" '-' '"' "a\x7db") ≠ [⟨"N", some "a\x7db", 1⟩] := by
  have found : references (quotedClause "N" '-' '"' "a\x7db") = [⟨"N", some "\"a", 1⟩] := by
    decide +kernel
  refine ⟨by decide, rfl, by decide, by decide, by decide, found, ?_⟩
  rw [found]
  decide

end EnvCensus.Shell
