import EnvCensus.Proofs.Dotenv.Declaration
import EnvCensus.Proofs.Dotenv.Quoting

/-!
# The part of a declaration that is read as its value

Behind a name and an equals sign, the value stands before the first hash that no
quote is open at. The value itself is a part of what stands there: blanks and
quotes are lost, and nothing else.
-/

namespace EnvCensus.Dotenv

open Text

variable {name v : String} {c : Char} {w u front after : List Char}

/-- No quote is open behind the text: either quote stands in it an even number of times. -/
def Closed (cs : List Char) : Prop := ∀ p, isQuote p = true → Even (cs.count p)

/-- What is kept of a text that follows an equals sign: what stands before the first hash where no
quote is open, or all of it when there is no such hash. -/
inductive Kept (w : List Char) : List Char → Prop
  | before {u after : List Char} (split : w = u ++ '#' :: after) (closed : Closed u)
      (first : ∀ sooner rest, u = sooner ++ '#' :: rest → ¬ Closed sooner) : Kept w u
  | whole (opened : ∀ u after, w = u ++ '#' :: after → ¬ Closed u) : Kept w w

theorem Kept.sublist (kept : Kept w u) : u.Sublist w := by
  cases kept with
  | before split =>
    rw [split]
    exact List.sublist_append_left _ _
  | whole => exact .refl _

theorem Kept.eq_of_no_hash (kept : Kept w u) (hashless : '#' ∉ w) : u = w := by
  cases kept with
  | before split => exact absurd (split ▸ by simp) hashless
  | whole => rfl

/-! ### What is kept of a line -/

theorem opens_binding_iff (exact : Name.Exact name) (u : List Char) :
    Opens (name.toList ++ '=' :: u) ↔ Closed u := by
  have counted (p : Char) (quote : isQuote p = true) :
      (name.toList ++ '=' :: u).count p = u.count p := by
    rw [List.append_cons, List.count_append, count_quote (plain_name exact) quote, Nat.zero_add]
  rw [opens_iff]
  constructor
  · rintro ⟨-, even⟩ p quote
    exact counted p quote ▸ even p quote
  · intro closed
    constructor
    · simp
    · intro p quote
      rw [counted p quote]
      exact closed p quote

/-- A binding is cut where what follows the equals sign is. -/
theorem kept_of_cut (exact : Name.Exact name) {line : List Char} {comment : Option (List Char)}
    (cut : Cut (name.toList ++ '=' :: w) line comment) :
    ∃ u, line = name.toList ++ '=' :: u ∧ Kept w u := by
  have hashless : '#' ∉ name.toList ++ ['='] := fun hash => (plain_name exact _ hash).1 rfl
  cases cut with
  | @hash front after split opens first =>
    rw [List.append_cons] at split
    obtain ⟨u, rfl, behind⟩ := split_behind hashless split
    rw [← List.append_cons] at opens
    refine ⟨u, (List.append_cons ..).symm, .before behind ((opens_binding_iff exact u).mp opens) ?_⟩
    rintro sooner rest rfl closed
    apply first (name.toList ++ '=' :: sooner) rest
    · simp
    · exact (opens_binding_iff exact sooner).mpr closed
  | uncut closed =>
    refine ⟨w, rfl, .whole fun u after split closed' => ?_⟩
    apply closed (name.toList ++ '=' :: u) after
    · rw [split, List.append_assoc, List.cons_append]
    · exact (opens_binding_iff exact u).mpr closed'

/-- A line that begins with an exact name and an equals sign is read as what is kept of the rest. -/
theorem parseLine_kept (exact : Name.Exact name) (line : '\n' ∉ w) (number : Nat) :
    ∃ u comment, Kept (trimRight w) u ∧
      parseLine (name.toList ++ '=' :: w) number = some (entryOf number name u comment) := by
  obtain ⟨front, comment, cut⟩ := exists_cut (trim (name.toList ++ '=' :: w))
  have whole := trim_binding exact w
  obtain ⟨u, rfl, kept⟩ := kept_of_cut exact (whole ▸ cut)
  refine ⟨u, comment, kept, ?_⟩
  obtain ⟨c, rest, e, head, -⟩ := Name.exact_iff.mp exact
  have other : c ≠ '#' := by
    rintro rfl
    exact absurd head (by decide)
  have feedless : '\n' ∉ trimRight u := by
    intro feed
    apply line
    apply mem_of_mem_trimRight
    exact kept.sublist.subset (mem_of_mem_trimRight feed)
  rw [parseLine_of_cut cut (by simp [whole]) (by rw [whole]; simpa [e] using other),
    trim_binding exact, declaration?_of_name exact feedless, Option.map_some]
  show some (entryOf number name (trimLeft (trimRight u)) comment) = _
  rw [trimLeft_trimRight, entryOf_trim]

/-! ### Hashes in what is kept -/

/-- Where all of a text is kept, a quote is open at each of its hashes. -/
theorem Kept.opened (kept : Kept w u) (all : u = w) (split : w = front ++ '#' :: after) :
    ¬ Closed front := by
  cases kept with
  | @before _ behind cut =>
    have shorter : u.length < w.length := by simp [cut]
    rw [all] at shorter
    exact absurd shorter (Nat.lt_irrefl _)
  | whole opened => exact opened front after split

/-- What is kept up to a hash, by the number of hashes in it, is closed. -/
theorem Kept.closed_of_count (kept : Kept w u) (split : w = front ++ '#' :: after)
    (same : u.count '#' = front.count '#') : Closed front := by
  cases kept with
  | before cut closed =>
    rcases split_cases (cut.symm.trans split) with
      ⟨rfl, -, -⟩ | ⟨between, rfl, -⟩ | ⟨between, rfl, -⟩
    · exact closed
    · rw [List.count_append, List.count_cons_self] at same
      omega
    · rw [List.count_append, List.count_cons_self] at same
      omega
  | whole =>
    rw [split, List.count_append, List.count_cons_self] at same
    omega

/-! ### The value -/

/-- A placeholder has letters, digits, underscores and points only. -/
theorem mem_of_isPlaceholder (held : isPlaceholder v = true) (mem : c ∈ v.toList) :
    Name.isTail c = true ∨ c = '.' := by
  have known : (placeholders.all fun p => p.toList.all fun d => Name.isTail d || d == '.') = true := by
    decide
  have shown : c.toUpper ∈ (upperAscii v).toList := by
    rw [upperAscii, String.toList_ofList]
    exact List.mem_map_of_mem mem
  have upper := List.all_eq_true.mp
    (List.all_eq_true.mp known _ (List.contains_iff_mem.mp held)) _ shown
  rw [Bool.or_eq_true, beq_iff_eq] at upper
  by_cases letter : Name.Letter c
  · exact Or.inl (Name.isTail_iff.mpr (Or.inl letter))
  · have same : c.toUpper = c := dif_neg fun lower => letter (Or.inl lower)
    rwa [same] at upper

/-- A text with any other character is a real value. -/
theorem real_of_mem (mem : c ∈ v.toList) (foreign : Name.isTail c = false) (point : c ≠ '.') :
    v ≠ "" ∧ isPlaceholder v = false := by
  constructor
  · rintro rfl
    cases mem
  · by_contra held
    rcases mem_of_isPlaceholder (eq_true_of_ne_false held) mem with tail | same
    · rw [foreign] at tail
      cases tail
    · exact point same

theorem value_sublist (given : parseValue u = some v) : v.toList.Sublist u := by
  cases parseValue_eq_iff.mp given with
  | value unwrapped => exact unwrapped.sublist.trans (trim_sublist u)

theorem count_value (given : parseValue u = some v) (shown : isBlank c = false)
    (bare : isQuote c = false) : v.toList.count c = u.count c := by
  cases parseValue_eq_iff.mp given with
  | value unwrapped => rw [unwrapped.count_eq bare, count_trim shown]

/-- A text gives a value when some character of it is neither blank nor a quote and stands in no
placeholder. -/
theorem exists_value (mem : c ∈ u) (shown : isBlank c = false) (bare : isQuote c = false)
    (foreign : Name.isTail c = false) (point : c ≠ '.') : ∃ v, parseValue u = some v := by
  cases given : parseValue u with
  | some v => exact ⟨v, rfl⟩
  | none =>
    cases parseValue_eq_iff.mp given with
    | @nothing v unwrapped held =>
      have inside : c ∈ v.toList := by
        rw [← List.count_pos_iff, unwrapped.count_eq bare, count_trim shown]
        exact List.count_pos_iff.mpr mem
      obtain ⟨nonempty, real⟩ := real_of_mem inside foreign point
      rcases held with rfl | held
      · exact absurd rfl nonempty
      · rw [real] at held
        cases held

end EnvCensus.Dotenv
