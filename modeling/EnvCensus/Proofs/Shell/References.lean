import EnvCensus.Proofs.Leftmost
import EnvCensus.Proofs.Name
import EnvCensus.Proofs.Text.Blank
import EnvCensus.Shell
import Mathlib.Algebra.Group.Nat.Even
import Mathlib.Data.List.DropRight
import Mathlib.Data.List.Pairwise

/-!
# References on a line

A dollar sign begins a reference when no backslash stands before it and a name
follows it, bare or in braces, there perhaps with a fallback clause. A line is
read from left to right, and reading goes on behind a reference that was found.
So each such dollar sign is found, unless it stands inside of a reference that
was found before it: a clause that mentions another variable is kept as a text
and not read again.
-/

namespace EnvCensus.Shell

variable {cs line name before form form' after after' passed rest : List Char}
  {fallback : Option (List Char)} {r s : Reference} {rs : List Reference} {place : Nat}

/-! ### How references are written -/

/-- A reference to the name, as it is written behind the dollar sign: what it has for a fallback,
its characters, and what may follow them. -/
inductive Form (name : List Char) : Option (List Char) → List Char → List Char → Prop
  | bare {after : List Char} (longest : ∀ c ∈ after.head?, Name.isTail c = false) :
      Form name none name after
  | braced {after : List Char} : Form name none ('{' :: (name ++ ['}'])) after
  | fallback {op : Char} {text after : List Char} (mark : op = '-' ∨ op = '=')
      (inside : '}' ∉ text) :
      Form name (some text) ('{' :: (name ++ ':' :: op :: (text ++ ['}']))) after

theorem braceTail?_eq_some : braceTail? cs = some (fallback, after) ↔
    (fallback = none ∧ cs = '}' :: after) ∨
      ∃ op text, (op = '-' ∨ op = '=') ∧ '}' ∉ text ∧ fallback = some text ∧
        cs = ':' :: op :: (text ++ '}' :: after) := by
  constructor
  · intro h
    unfold braceTail? at h
    split at h
    · cases h
      exact Or.inl ⟨rfl, rfl⟩
    · rename_i op inner
      split at h
      · rename_i mark
        split at h
        · rename_i brace behind cut
          cases h
          obtain ⟨text, inside, rfl⟩ := Text.exists_of_dropWhile_ne cut
          refine Or.inr ⟨op, text, by simpa using mark, inside, ?_, rfl⟩
          rw [(Text.takeWhile_ne_append inside after).1]
        · cases h
      · cases h
    · cases h
  · rintro (⟨rfl, rfl⟩ | ⟨op, text, mark, inside, rfl, rfl⟩)
    · rfl
    · have marked : (op == '-' || op == '=') = true := by simpa using mark
      obtain ⟨taken, dropped⟩ := Text.takeWhile_ne_append inside after
      simp only [braceTail?, marked, if_true, taken, dropped]

theorem reference?_braced (inner : List Char) :
    reference? ('{' :: inner) = (Name.split inner).bind fun (name, tail) =>
      (braceTail? tail).map fun (fallback, rest) => (name, fallback, rest) := by
  cases named : Name.split inner with
  | none => simp [reference?, named]
  | some split => cases closed : braceTail? split.2 <;> simp [reference?, named, closed]

theorem reference?_bare (h : cs.head? ≠ some '{') :
    reference? cs = (Name.split cs).map fun (name, rest) => (name, none, rest) := by
  unfold reference?
  split
  · exact absurd rfl h
  · rfl

/-- What is read behind a dollar sign is a reference in one of its forms. -/
theorem reference?_eq_some : reference? cs = some (name, fallback, after) ↔
    ∃ form, cs = form ++ after ∧ Name.Exact (String.ofList name) ∧
      Form name fallback form after := by
  constructor
  · intro h
    -- a brace decides which clause is read; behind it the name is split off in the same way
    by_cases brace : cs.head? = some '{'
    · obtain ⟨inner, rfl⟩ := List.head?_eq_some_iff.mp brace
      rw [reference?_braced, Option.bind_eq_some_iff] at h
      obtain ⟨⟨_, tail⟩, named, h⟩ := h
      obtain ⟨⟨_, _⟩, closed, e⟩ := Option.map_eq_some_iff.mp h
      cases e
      obtain ⟨rfl, exact, -⟩ := Name.split_eq_some.mp named
      rcases braceTail?_eq_some.mp closed with ⟨rfl, rfl⟩ | ⟨op, text, mark, inside, rfl, rfl⟩
      · exact ⟨_, by simp, exact, .braced⟩
      · exact ⟨_, by simp, exact, .fallback mark inside⟩
    · rw [reference?_bare brace] at h
      obtain ⟨⟨_, _⟩, named, e⟩ := Option.map_eq_some_iff.mp h
      cases e
      obtain ⟨rfl, exact, longest⟩ := Name.split_eq_some.mp named
      exact ⟨name, rfl, exact, .bare longest⟩
  · rintro ⟨form, rfl, exact, written⟩
    have named {tail : List Char} (stop : ∀ c ∈ tail.head?, Name.isTail c = false) :
        Name.split (name ++ tail) = some (name, tail) :=
      Name.split_eq_some.mpr ⟨rfl, exact, stop⟩
    cases written with
    | bare longest =>
      have letter : (name ++ after).head? ≠ some '{' := by
        obtain ⟨c, first, head⟩ := exact.head? after
        rw [first]
        rintro ⟨⟩
        exact absurd head (by decide)
      rw [reference?_bare letter, named longest]
      rfl
    | braced =>
      have closed : braceTail? ('}' :: after) = some (none, after) := rfl
      rw [List.cons_append, List.append_assoc, reference?_braced, List.singleton_append,
        named (by simp; decide)]
      simp [closed]
    | @fallback op text _ mark inside =>
      have closed : braceTail? (':' :: op :: (text ++ '}' :: after)) = some (some text, after) :=
        braceTail?_eq_some.mpr (Or.inr ⟨op, text, mark, inside, rfl, rfl⟩)
      have rest : ':' :: op :: (text ++ ['}']) ++ after = ':' :: op :: (text ++ '}' :: after) := by
        simp
      rw [List.cons_append, List.append_assoc, reference?_braced, rest, named (by simp; decide)]
      simp [closed]

/-! ### References in their places -/

/-- The reference is written out on the line, between what stands before its dollar sign and what
follows it. -/
structure Reference.Stands (r : Reference) (line before form after : List Char) : Prop where
  text : line = before ++ '$' :: (form ++ after)
  unescaped : before.getLast? ≠ some '\\'
  exact : Name.Exact r.name
  written : ∃ fallback, Form r.name.toList fallback form after ∧
    r.fallback = fallback.map fun d => String.ofList (Text.stripQuotes d)
  column : r.column = before.length + 1

/-- The reference ends before the other one begins. -/
def Reference.EndsBefore (line : List Char) (r s : Reference) : Prop :=
  ∃ before form after, r.Stands line before form after ∧ before.length + 1 + form.length < s.column

/-- The place is inside of the reference, behind its dollar sign. -/
def Reference.Covers (line : List Char) (r : Reference) (place : Nat) : Prop :=
  ∃ before form after, r.Stands line before form after ∧ before.length < place ∧
    place < before.length + 1 + form.length

theorem Reference.Stands.reads (h : r.Stands line before form after) :
    ∃ fallback, reference? (form ++ after) = some (r.name.toList, fallback, after) ∧
      r.fallback = fallback.map fun d => String.ofList (Text.stripQuotes d) := by
  obtain ⟨fallback, written, same⟩ := h.written
  refine ⟨fallback, reference?_eq_some.mpr ⟨form, rfl, ?_, written⟩, same⟩
  rw [String.ofList_toList]
  exact h.exact

theorem Reference.stands_of_reads (text : line = before ++ '$' :: rest)
    (unescaped : before.getLast? ≠ some '\\') (h : reference? rest = some (name, fallback, after)) :
    ∃ form, rest = form ++ after ∧ Reference.Stands ⟨String.ofList name,
      fallback.map fun d => String.ofList (Text.stripQuotes d), before.length + 1⟩
      line before form after := by
  obtain ⟨form, rfl, exact, written⟩ := reference?_eq_some.mp h
  refine ⟨form, rfl, text, unescaped, exact, ⟨fallback, ?_, rfl⟩, rfl⟩
  rw [String.toList_ofList]
  exact written

theorem Reference.Stands.form_ne_nil (h : r.Stands line before form after) : form ≠ [] := by
  obtain ⟨_, written, -⟩ := h.written
  cases written with
  | bare =>
    obtain ⟨c, run, e, -, -⟩ := h.exact
    exact e ▸ List.cons_ne_nil c run
  | braced => exact List.cons_ne_nil _ _
  | fallback => exact List.cons_ne_nil _ _

/-- One place is the place of one reference. -/
theorem Reference.Stands.unique (hr : r.Stands line before form after)
    (hs : s.Stands line before form' after') : r = s ∧ form = form' := by
  have same : form ++ after = form' ++ after' := by
    have cut : before ++ '$' :: (form ++ after) = before ++ '$' :: (form' ++ after') :=
      hr.text.symm.trans hs.text
    simpa using cut
  obtain ⟨fallback, readsR, fallbackR⟩ := hr.reads
  obtain ⟨fallback', readsS, fallbackS⟩ := hs.reads
  rw [same, readsS] at readsR
  obtain ⟨names, rfl, rfl⟩ : s.name.toList = r.name.toList ∧ fallback' = fallback ∧
    after' = after := by simpa using readsR
  refine ⟨?_, List.append_cancel_right same⟩
  cases r
  cases s
  simp only [Reference.mk.injEq]
  exact ⟨(String.toList_inj.mp names).symm, fallbackR.trans fallbackS.symm,
    hr.column.trans hs.column.symm⟩

theorem Reference.Stands.unique_of_column (hr : r.Stands line before form after)
    {before' : List Char} (hs : s.Stands line before' form' after') (column : r.column = s.column) :
    r = s ∧ before = before' ∧ form = form' := by
  obtain rfl : before = before' := by
    have lengths : before.length = before'.length := by
      have := hr.column
      have := hs.column
      omega
    exact List.append_inj_left (hr.text.symm.trans hs.text) lengths
  exact ⟨(hr.unique hs).1, rfl, (hr.unique hs).2⟩

theorem Reference.Covers.column_le (h : r.Covers line place) : r.column ≤ place := by
  obtain ⟨before, form, after, stands, reached, -⟩ := h
  rw [stands.column]
  exact reached

theorem Reference.EndsBefore.column_lt (h : r.EndsBefore line s) : r.column < s.column := by
  obtain ⟨before, form, after, stands, ends⟩ := h
  rw [stands.column]
  omega

/-- What ends before a reference does not reach into it. -/
theorem Reference.EndsBefore.not_covers (h : r.EndsBefore line s) :
    ¬ r.Covers line (s.column - 1) := by
  rintro ⟨before', form', after', stands', -, reaches⟩
  obtain ⟨before, form, after, stands, ends⟩ := h
  obtain ⟨-, rfl, rfl⟩ := stands.unique_of_column stands' rfl
  omega

theorem Reference.Covers.column_lt (h : s.Covers line (r.column - 1)) : s.column < r.column := by
  have reached := h.column_le
  obtain ⟨before, form, after, stands, -⟩ := h
  have counted := stands.column
  omega

/-! ### Reading a line -/

/-- Reading the rest of a line, behind what is passed, gives the references: a reference that stands
there is passed as a whole, and otherwise one character is. -/
inductive Scans (line : List Char) : List Char → List Char → List Reference → Prop
  | done {passed : List Char} : Scans line passed [] []
  | found {passed form after : List Char} {r : Reference} {rs : List Reference}
      (stands : r.Stands line passed form after)
      (others : Scans line (passed ++ '$' :: form) after rs) :
      Scans line passed ('$' :: (form ++ after)) (r :: rs)
  | skip {passed cs : List Char} {c : Char} {rs : List Reference}
      (nothing : ∀ r form after, ¬ Reference.Stands r line passed form after)
      (others : Scans line (passed ++ [c]) cs rs) : Scans line passed (c :: cs) rs

theorem scans_referencesFrom {column : Nat} {last : Option Char} (text : line = passed ++ cs)
    (counted : column = passed.length + 1) (stood : last = passed.getLast?) :
    Scans line passed cs (referencesFrom column last cs) := by
  -- the column and the last character are those of what was passed, so all three go along
  fun_induction referencesFrom column last cs generalizing passed with
  | case1 => exact .done
  | case2 column last c rest dollar name fallback after read _ ih =>
    obtain ⟨sign, unescaped⟩ := Bool.and_eq_true_iff.mp dollar
    obtain rfl : c = '$' := by simpa using sign
    obtain rfl : last = passed.getLast? := stood
    obtain ⟨form, rfl, stands⟩ :=
      Reference.stands_of_reads text (by simpa using unescaped) read
    have size : (form ++ after).length - after.length = form.length := by simp
    subst counted
    refine .found stands (ih ?_ ?_ ?_)
    · simp [text]
    · rw [size, List.length_append, List.length_cons]
      omega
    · rw [size, List.take_left, List.getLast?_append_of_ne_nil _ (List.cons_ne_nil _ _),
        List.getLast?_cons_of_ne_nil stands.form_ne_nil]
  | case3 column last c rest dollar read ih =>
    refine .skip (fun r form after stands => ?_) (ih (by simp [text]) ?_ (by simp))
    · obtain ⟨e, rfl⟩ := List.cons.inj (List.append_cancel_left (text.symm.trans stands.text))
      obtain ⟨fallback, reads, -⟩ := stands.reads
      simp [reads] at read
    · simp [counted]
  | case4 column last c rest escaped ih =>
    refine .skip (fun r form after stands => escaped ?_) (ih (by simp [text]) ?_ (by simp))
    · obtain ⟨rfl, -⟩ := List.cons.inj (List.append_cancel_left (text.symm.trans stands.text))
      simpa [stood] using stands.unescaped
    · simp [counted]

theorem scans_references (line : List Char) : Scans line [] line (references line) :=
  scans_referencesFrom rfl rfl rfl

/-- What is found stands behind what was passed before. -/
theorem Scans.stands (h : Scans line passed cs rs) :
    ∀ r ∈ rs, passed.length < r.column ∧ ∃ before form after, r.Stands line before form after := by
  induction h with
  | done => exact List.forall_mem_nil _
  | found stands _ ih =>
    refine List.forall_mem_cons.mpr ⟨⟨?_, _, _, _, stands⟩, fun r hr => ?_⟩
    · rw [stands.column]
      omega
    · obtain ⟨behind, there⟩ := ih r hr
      rw [List.length_append] at behind
      exact ⟨by omega, there⟩
  | skip _ _ ih =>
    intro r hr
    obtain ⟨behind, there⟩ := ih r hr
    rw [List.length_append] at behind
    exact ⟨by omega, there⟩

theorem exists_stands (h : r ∈ references line) :
    ∃ before form after, r.Stands line before form after :=
  ((scans_references line).stands r h).2

/-- Whatever is found ends before the next one begins. -/
theorem Scans.pairwise (h : Scans line passed cs rs) : rs.Pairwise (Reference.EndsBefore line) := by
  induction h with
  | done => exact .nil
  | found stands others ih =>
    refine .cons (fun s hs => ⟨_, _, _, stands, ?_⟩) ih
    have behind := (others.stands s hs).1
    rw [List.length_append, List.length_cons] at behind
    omega
  | skip _ _ ih => exact ih

/-- A reference that stands behind what was passed is found, or begins inside of one that is. -/
theorem Scans.mem_or_covered (h : Scans line passed cs rs) (text : line = passed ++ cs)
    (stands : r.Stands line before form after) (behind : passed.length ≤ before.length) :
    r ∈ rs ∨ ∃ s ∈ rs, s.Covers line before.length := by
  induction h with
  | done =>
    have whole := congrArg List.length (text.symm.trans stands.text)
    simp only [List.append_nil, List.length_append, List.length_cons] at whole
    omega
  | @found passed inner _ s _ here _ ih =>
    by_cases reached : passed.length + 1 + inner.length ≤ before.length
    · have next := ih (by simp [text]) (by rw [List.length_append, List.length_cons]; omega)
      exact next.imp (List.mem_cons_of_mem _) fun ⟨t, ht, covers⟩ =>
        ⟨t, List.mem_cons_of_mem _ ht, covers⟩
    · rcases behind.eq_or_lt with same | later
      · have place : r.column = s.column := by rw [stands.column, here.column, same]
        exact Or.inl ((stands.unique_of_column here place).1 ▸ List.mem_cons_self)
      · exact Or.inr ⟨s, List.mem_cons_self, _, _, _, here, later, by omega⟩
  | @skip passed _ c _ nothing _ ih =>
    rcases behind.eq_or_lt with same | later
    · obtain rfl : passed = before := List.append_inj_left (text.symm.trans stands.text) same
      exact absurd stands (nothing _ _ _)
    · exact ih (by simp [text]) (by rw [List.length_append]; exact later)

/-- No reference that is found begins inside of another. -/
theorem Scans.not_covers (h : Scans line passed cs rs) (hr : r ∈ rs) (hs : s ∈ rs) :
    ¬ s.Covers line (r.column - 1) :=
  not_inside_of_pairwise (fun _ _ covers => Reference.Covers.column_lt covers)
    (h.pairwise.imp Reference.EndsBefore.column_lt)
    (h.pairwise.imp Reference.EndsBefore.not_covers) hr hs

/-! ### Where a reference begins -/

/-- A name follows the dollar sign, or a complete form in braces with the name. -/
inductive Begins (name : List Char) : List Char → Prop
  | bare {after : List Char} (longest : ∀ c ∈ after.head?, Name.isTail c = false) :
      Begins name (name ++ after)
  | braced {after : List Char} : Begins name ('{' :: (name ++ '}' :: after))
  | fallback {op : Char} {text after : List Char} (mark : op = '-' ∨ op = '=') :
      Begins name ('{' :: (name ++ ':' :: op :: (text ++ '}' :: after)))

theorem Begins.exists_form (h : Begins name rest) :
    ∃ fallback form after, rest = form ++ after ∧ Form name fallback form after := by
  cases h with
  | bare longest => exact ⟨_, _, _, rfl, .bare longest⟩
  | @braced after => exact ⟨_, _, after, by simp, .braced⟩
  | @fallback op text after mark =>
    have closed : '}' ∈ text ++ '}' :: after := by simp
    obtain ⟨inner, behind, cut, inside⟩ := List.eq_append_cons_of_mem closed
    exact ⟨_, _, behind, by simp [cut], .fallback mark inside⟩

theorem Begins.stands (begins : Begins name rest) (exact : Name.Exact (String.ofList name))
    (unescaped : before.getLast? ≠ some '\\') :
    ∃ r form after, Reference.Stands r (before ++ '$' :: rest) before form after ∧
      r.name = String.ofList name := by
  obtain ⟨fallback, form, after, rfl, written⟩ := begins.exists_form
  obtain ⟨_, -, stands⟩ := Reference.stands_of_reads rfl unescaped
    (reference?_eq_some.mpr ⟨form, rfl, exact, written⟩)
  exact ⟨_, _, _, stands, rfl⟩

/-- The place is inside of the text of the reference's fallback clause. -/
def Reference.ClauseCovers (line : List Char) (r : Reference) (place : Nat) : Prop :=
  ∃ before op text after,
    r.Stands line before ('{' :: (r.name.toList ++ ':' :: op :: (text ++ ['}']))) after ∧
      before.length + r.name.toList.length + 4 ≤ place ∧
      place < before.length + r.name.toList.length + 4 + text.length

theorem Reference.ClauseCovers.covers (h : r.ClauseCovers line place) : r.Covers line place := by
  obtain ⟨before, op, text, after, stands, reached, within⟩ := h
  refine ⟨before, _, after, stands, by omega, ?_⟩
  simp only [List.length_cons, List.length_append, List.length_nil]
  omega

/-- A dollar sign inside of a reference stands in its clause. -/
theorem Reference.Covers.clauseCovers (h : r.Covers line place) (sign : (line)[place]? = some '$') :
    r.ClauseCovers line place := by
  obtain ⟨before, form, after, stands, reached, within⟩ := h
  obtain ⟨i, rfl⟩ : ∃ i, place = before.length + (i + 1) := ⟨place - before.length - 1, by omega⟩
  have inForm : form[i]? = some '$' := by
    rw [stands.text, List.getElem?_append_right (by omega), Nat.add_sub_cancel_left,
      List.getElem?_cons_succ, List.getElem?_append_left (by omega)] at sign
    exact sign
  have noSign : '$' ∉ r.name.toList := fun mem => absurd (stands.exact.isTail mem) (by decide)
  obtain ⟨fallback, written, -⟩ := stands.written
  cases written with
  | bare => exact absurd (List.mem_of_getElem? inForm) noSign
  | braced =>
    have mem := List.mem_of_getElem? inForm
    simp [noSign] at mem
  | @fallback op text _ mark inside =>
    have split : '{' :: (r.name.toList ++ ':' :: op :: (text ++ ['}'])) =
        '{' :: (r.name.toList ++ [':', op]) ++ (text ++ ['}']) := by simp
    have size : ('{' :: (r.name.toList ++ [':', op])).length = r.name.toList.length + 3 := by simp
    rw [split] at inForm within
    rw [List.length_append, size, List.length_append, List.length_singleton] at within
    -- neither what stands before the text nor the closing brace has a dollar sign
    have behind : r.name.toList.length + 3 ≤ i := by
      by_contra front
      rw [List.getElem?_append_left (by omega)] at inForm
      have mem := List.mem_of_getElem? inForm
      rcases mark with rfl | rfl <;> simp [noSign] at mem
    have inText : i < r.name.toList.length + 3 + text.length := by
      by_contra last
      have place : i = ('{' :: (r.name.toList ++ [':', op])).length + text.length := by omega
      rw [place, List.getElem?_append_right (by omega), Nat.add_sub_cancel_left,
        List.getElem?_concat_length] at inForm
      exact absurd inForm (by decide)
    exact ⟨before, op, text, after, stands, by omega, by omega⟩

/-- Where a dollar sign with no backslash before it begins a reference, the name is reported with
the column of the sign, unless the sign stands in the clause of another reference that is reported.
-/
theorem references_found_iff (exact : Name.Exact (String.ofList name)) (begins : Begins name rest)
    (unescaped : before.getLast? ≠ some '\\') :
    (∃ r ∈ references (before ++ '$' :: rest), r.name = String.ofList name ∧
        r.column = before.length + 1) ↔
      ¬ ∃ s ∈ references (before ++ '$' :: rest),
        s.ClauseCovers (before ++ '$' :: rest) before.length := by
  have scans := scans_references (before ++ '$' :: rest)
  constructor
  · rintro ⟨r, hr, -, column⟩ ⟨s, hs, covers⟩
    refine scans.not_covers hr hs ?_
    rw [column]
    exact covers.covers
  · intro free
    obtain ⟨r, form, after, stands, named⟩ := begins.stands exact unescaped
    rcases scans.mem_or_covered rfl stands (Nat.zero_le _) with mem | ⟨s, hs, covers⟩
    · exact ⟨r, mem, named, stands.column⟩
    · exact absurd ⟨s, hs, covers.clauseCovers (by simp)⟩ free

theorem references_found_behindWord :
    Name.Exact "TOKEN" ∧ Begins "TOKEN".toList "TOKEN".toList ∧
      "echo ".toList.getLast? ≠ some '\\' ∧
      ∃ r ∈ references "echo $TOKEN".toList, r.name = "TOKEN" ∧ r.column = 6 := by
  have exact : Name.Exact "TOKEN" := by decide
  have begins : Begins "TOKEN".toList "TOKEN".toList := .bare (by simp)
  have unescaped : "echo ".toList.getLast? ≠ some '\\' := by decide
  have alone : references "echo $TOKEN".toList = [⟨"TOKEN", none, 6⟩] := by decide +kernel
  refine ⟨exact, begins, unescaped, (references_found_iff exact begins unescaped).mpr ?_⟩
  rintro ⟨s, hs, covers⟩
  obtain rfl : s = ⟨"TOKEN", none, 6⟩ := List.mem_singleton.mp (alone ▸ hs)
  exact absurd covers.covers.column_le (by decide)

/-- The number of backslashes directly before a place. -/
def backslashes (before : List Char) : Nat := (before.rtakeWhile (· = '\\')).length

/-- A dollar sign without a backslash begins a reference inside of a clause, and one behind two
backslashes begins another, but neither is reported. -/
theorem references_overlooked :
    (Name.Exact "B" ∧ Begins "B".toList "B\x7d".toList ∧ Even (backslashes "$\x7bA:-".toList) ∧
      ¬ ∃ r ∈ references ("$\x7bA:-".toList ++ '$' :: "B\x7d".toList),
        r.name = "B" ∧ r.column = 6) ∧
    Name.Exact "TOKEN" ∧ Begins "TOKEN".toList "TOKEN".toList ∧
      Even (backslashes "\\\\".toList) ∧
      ¬ ∃ r ∈ references ("\\\\".toList ++ '$' :: "TOKEN".toList),
        r.name = "TOKEN" ∧ r.column = 3 := by
  have nested : references ("$\x7bA:-".toList ++ '$' :: "B\x7d".toList) =
      [⟨"A", some "$B", 1⟩] := by decide +kernel
  have doubled : references ("\\\\".toList ++ '$' :: "TOKEN".toList) = [] := by decide +kernel
  have inside : Begins "B".toList "B\x7d".toList := .bare (by simp; decide)
  have alone : Begins "TOKEN".toList "TOKEN".toList := .bare (by simp)
  rw [nested, doubled]
  exact ⟨⟨by decide, inside, by decide, by simp⟩, by decide, alone, by decide, by simp⟩

end EnvCensus.Shell
