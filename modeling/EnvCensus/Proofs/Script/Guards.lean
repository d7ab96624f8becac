import EnvCensus.Proofs.Script.Destructuring
import EnvCensus.Proofs.Splits

/-!
# Guards of accesses

Whether an access is guarded is decided by the trees above it. A fallback guards
its left operand, which may stand in up to three pairs of parentheses, and a
condition guards what it reaches through parentheses and operators, up to three
trees away. Parentheses around the left operand change nothing, and nothing is
guarded by a fallback from its right or by a condition from outside of it.
-/

namespace EnvCensus.Script

variable {t p : Tree} {above inner rest : List Tree} {g : Guard} {n : Nat}

/-! ### What guards an access -/

/-- The last of the trees that lie one in the other from `t` on: the child of the next tree above
them. -/
def outermost (t : Tree) (inner : List Tree) : Tree := inner.getLastD t

@[simp] theorem outermost_nil (t : Tree) : outermost t [] = t := rfl

@[simp] theorem outermost_cons (t q : Tree) (inner : List Tree) :
    outermost t (q :: inner) = outermost q inner := List.getLastD_cons

/-- The tree `p` is a fallback with `t` as its left operand, but for at most three pairs of
parentheses directly around it; `inner` are the trees in between. -/
structure FallbackAt (t : Tree) (inner : List Tree) (p : Tree) : Prop where
  pairs : ∀ q ∈ inner, q.kind = .parenthesized
  atMost : inner.length ≤ 3
  binary : p.kind = .binaryExpression
  operator : ∃ o, p.child? .operator = some o ∧ o.text ∈ ["||".toList, "??".toList]
  left : (outermost t inner).role = .left

/-- The tree `p` is one of the first three trees above `t`, it is a ternary expression or an if
statement, and `t` lies in its condition; `inner` are the trees in between, all of them parentheses,
unary and binary expressions. -/
structure ConditionAt (t : Tree) (inner : List Tree) (p : Tree) : Prop where
  carried : ∀ q ∈ inner,
    q.kind = .parenthesized ∨ q.kind = .unaryExpression ∨ q.kind = .binaryExpression
  near : inner.length < 3
  decides : p.kind = .ternaryExpression ∨ p.kind = .ifStatement
  condition : (outermost t inner).role = .condition

/-- Below the given trees some fallback has `t` as its left operand. -/
def LeftOfFallback (t : Tree) (above : List Tree) (p : Tree) : Prop :=
  ∃ inner rest, above = inner ++ p :: rest ∧ FallbackAt t inner p

def UnderCondition (t : Tree) (above : List Tree) : Prop :=
  ∃ inner p rest, above = inner ++ p :: rest ∧ ConditionAt t inner p

/-- What the right operand of a fallback is worth: the decoded text of a string or of a template
without substitutions, and nothing for every other operand. -/
def RightWorth (p : Tree) (d : Option String) : Prop :=
  match p.child? .right with
  | some e => DefaultOf e d
  | none => d = none

/-- How an access below the given trees is guarded. -/
inductive GuardedAs (t : Tree) (above : List Tree) : Guard → Prop
  | fallback {p : Tree} {d : Option String} (left : LeftOfFallback t above p)
      (worth : RightWorth p d) : GuardedAs t above ⟨true, d⟩
  | condition (noFallback : ∀ p, ¬ LeftOfFallback t above p) (under : UnderCondition t above) :
      GuardedAs t above ⟨true, none⟩
  | unguarded (noFallback : ∀ p, ¬ LeftOfFallback t above p) (free : ¬ UnderCondition t above) :
      GuardedAs t above ⟨false, none⟩

/-! ### Parentheses -/

/-- The parentheses directly around a tree are taken off, as many as there are or as many as may
be. -/
theorem withParentheses_spec (n : Nat) (t : Tree) (above : List Tree) :
    ∃ inner, above = inner ++ (withParentheses n t above).2 ∧ inner.length ≤ n ∧
      (∀ q ∈ inner, q.kind = .parenthesized) ∧
      (withParentheses n t above).1 = outermost t inner := by
  fun_induction withParentheses n t above with
  | case1 n t p above paren ih =>
    obtain ⟨inner, split, atMost, pairs, operand⟩ := ih
    refine ⟨p :: inner, by rw [List.cons_append, ← split], Nat.succ_le_succ atMost,
      List.forall_mem_cons.mpr ⟨paren, pairs⟩, ?_⟩
    rw [operand, outermost_cons]
  | case2 n t p above bare => exact ⟨[], rfl, Nat.zero_le _, by simp, rfl⟩
  | case3 => exact ⟨[], rfl, Nat.zero_le _, by simp, rfl⟩

theorem withParentheses_append (pairs : ∀ q ∈ inner, q.kind = .parenthesized)
    (atMost : inner.length ≤ n) (bare : p.kind ≠ .parenthesized) :
    withParentheses n t (inner ++ p :: rest) = (outermost t inner, p :: rest) := by
  induction inner generalizing n t with
  | nil =>
    cases n with
    | zero => rfl
    | succ n => rw [List.nil_append, withParentheses, if_neg bare, outermost_nil]
  | cons q inner ih =>
    obtain ⟨first, others⟩ := List.forall_mem_cons.mp pairs
    cases n with
    | zero => cases atMost
    | succ n =>
      rw [List.cons_append, withParentheses, if_pos first,
        ih others (Nat.le_of_succ_le_succ atMost), outermost_cons]

theorem fallbackRight?_eq_some {right : Option Tree} :
    fallbackRight? t above = some right ↔
      ∃ p, LeftOfFallback t above p ∧ p.child? .right = right := by
  constructor
  · intro h
    obtain ⟨inner, split, atMost, pairs, operand⟩ := withParentheses_spec guardDepth t above
    unfold fallbackRight? at h
    split at h
    · rename_i o p rest found
      rw [found] at split operand
      obtain rfl : o = outermost t inner := operand
      obtain ⟨conds, h⟩ := Option.ite_none_right_eq_some.mp h
      simp only [Bool.and_eq_true, decide_eq_true_eq, beq_iff_eq, Option.any_eq_true,
        List.contains_iff_mem] at conds
      obtain ⟨⟨binary, left⟩, falls⟩ := conds
      exact ⟨p, ⟨inner, rest, split, ⟨pairs, atMost, binary, falls, left⟩⟩, Option.some_inj.mp h⟩
    · cases h
  · rintro ⟨p, ⟨inner, rest, rfl, falls⟩, rfl⟩
    have bare : p.kind ≠ .parenthesized := by
      rw [falls.binary]
      decide
    obtain ⟨o, operator, known⟩ := falls.operator
    have fallsBack : o.text ∈ fallbackOperators := known
    have atMost : inner.length ≤ guardDepth := falls.atMost
    rw [fallbackRight?, withParentheses_append falls.pairs atMost bare]
    simp [falls.binary, falls.left, operator, fallsBack]

theorem inCondition_iff : inCondition n t above = true ↔
    ∃ inner p rest, above = inner ++ p :: rest ∧ inner.length < n ∧
      (∀ q ∈ inner, carriesCondition q.kind = true) ∧
      (p.kind = .ternaryExpression ∨ p.kind = .ifStatement) ∧
      (outermost t inner).role = .condition := by
  fun_induction inCondition n t above with
  | case1 n t p above decides =>
    rw [Bool.or_eq_true, decide_eq_true_eq, decide_eq_true_eq] at decides
    have stops : carriesCondition p.kind = false := by
      rcases decides with h | h <;> rw [h] <;> decide
    rw [beq_iff_eq]
    constructor
    · exact fun condition => ⟨[], p, above, rfl, Nat.succ_pos n, by simp, decides, condition⟩
    · rintro ⟨inner, q, rest, split, -, carried, -, condition⟩
      cases inner with
      | nil => exact condition
      | cons q' inner =>
        cases split
        rw [carried p List.mem_cons_self] at stops
        cases stops
  | case2 n t p above passes ih =>
    rw [Bool.or_eq_true, decide_eq_true_eq, decide_eq_true_eq] at passes
    -- one level up the parent is passed as well, and the outermost node below stays the same
    rw [Bool.and_eq_true, ih]
    constructor
    · rintro ⟨carries, inner, q, rest, rfl, near, carried, decides, condition⟩
      exact ⟨p :: inner, q, rest, rfl, Nat.succ_lt_succ near,
        List.forall_mem_cons.mpr ⟨carries, carried⟩, decides, by rwa [outermost_cons]⟩
    · rintro ⟨inner, q, rest, split, near, carried, decides, condition⟩
      cases inner with
      | nil =>
        cases split
        exact absurd decides passes
      | cons q' inner =>
        cases split
        obtain ⟨carries, carried⟩ := List.forall_mem_cons.mp carried
        rw [outermost_cons] at condition
        exact ⟨carries, inner, q, rest, rfl, Nat.lt_of_succ_lt_succ near, carried, decides,
          condition⟩
  | case3 n t above ends =>
    refine iff_of_false Bool.false_ne_true ?_
    rintro ⟨inner, p, rest, split, near, -⟩
    obtain ⟨k, rfl⟩ := Nat.exists_eq_add_one.mpr (Nat.lt_of_le_of_lt (Nat.zero_le _) near)
    cases inner with
    | nil => exact ends k p rest rfl split
    | cons q inner => exact ends k q _ rfl split

theorem carriesCondition_iff {k : Kind} : carriesCondition k = true ↔
    k = .parenthesized ∨ k = .unaryExpression ∨ k = .binaryExpression := by
  simp [carriesCondition]

theorem inCondition_guardDepth_iff :
    inCondition guardDepth t above = true ↔ UnderCondition t above := by
  rw [inCondition_iff]
  constructor
  · rintro ⟨inner, p, rest, split, near, carried, decides, condition⟩
    exact ⟨inner, p, rest, split, fun q hq => carriesCondition_iff.mp (carried q hq), near, decides,
      condition⟩
  · rintro ⟨inner, p, rest, split, under⟩
    exact ⟨inner, p, rest, split, under.near,
      fun q hq => carriesCondition_iff.mpr (under.carried q hq), under.decides, under.condition⟩

/-! ### The guard -/

theorem literalValue_eq_ok {e : Tree} {d : Option String} :
    literalValue e = .ok d ↔ DefaultOf e d := by
  refine ⟨fun h => ?_, literalValue_of_defaultOf⟩
  unfold literalValue at h
  split at h
  · rename_i literal
    obtain ⟨cs, decoded, rfl⟩ := map_eq_ok.mp h
    exact .decoded literal decoded
  · rename_i other
    cases h
    exact .other (Bool.not_eq_true _ ▸ other)

theorem literalValue?_eq_ok {d : Option String} :
    literalValue? (p.child? .right) = .ok d ↔ RightWorth p d := by
  unfold RightWorth
  cases p.child? .right with
  | none => simp [literalValue?, eq_comm]
  | some e => exact literalValue_eq_ok

theorem guardOf_of_left (left : LeftOfFallback t above p) :
    guardOf t above = (literalValue? (p.child? .right)).map fun d => ⟨true, d⟩ := by
  rw [guardOf, fallbackRight?_eq_some.mpr ⟨p, left, rfl⟩]

theorem guardOf_of_not_left (noFallback : ∀ p, ¬ LeftOfFallback t above p) :
    guardOf t above = .ok ⟨inCondition guardDepth t above, none⟩ := by
  have none : fallbackRight? t above = .none := by
    refine Option.eq_none_iff_forall_ne_some.mpr fun right h => ?_
    obtain ⟨p, left, -⟩ := fallbackRight?_eq_some.mp h
    exact noFallback p left
  rw [guardOf, none]

theorem GuardedAs.guardOf_eq (h : GuardedAs t above g) : guardOf t above = .ok g := by
  cases h with
  | fallback left worth =>
    rw [guardOf_of_left left, literalValue?_eq_ok.mpr worth]
    rfl
  | condition noFallback under =>
    rw [guardOf_of_not_left noFallback, inCondition_guardDepth_iff.mpr under]
  | unguarded noFallback free =>
    rw [guardOf_of_not_left noFallback,
      Bool.eq_false_iff.mpr (mt inCondition_guardDepth_iff.mp free)]

/-- The right operand of the fallback that guards the access is a text with an escape by a code
beyond the last code point. -/
def UnreadableFallback (t : Tree) (above : List Tree) (fault : EscapeFault) : Prop :=
  ∃ p e, LeftOfFallback t above p ∧ p.child? .right = some e ∧ isTextLiteral e = true ∧
    decodeEscapes (innerText e.text) = .error fault ∧ fault.Beyond

theorem UnreadableFallback.guardOf_eq {fault : EscapeFault}
    (h : UnreadableFallback t above fault) : guardOf t above = .error fault := by
  obtain ⟨p, e, left, right, literal, failed, -⟩ := h
  rw [guardOf_of_left left, right, literalValue?, literalValue, if_pos literal, failed]
  rfl

theorem guardedAs_or_unreadable (t : Tree) (above : List Tree) :
    (∃ g, GuardedAs t above g) ∨ ∃ fault, UnreadableFallback t above fault := by
  by_cases fallback : ∃ p, LeftOfFallback t above p
  · obtain ⟨p, left⟩ := fallback
    cases worth : literalValue? (p.child? .right) with
    | ok d => exact Or.inl ⟨_, .fallback left (literalValue?_eq_ok.mp worth)⟩
    | error fault =>
      have beyond := (literalValue?_reads _).failure worth
      cases right : p.child? .right with
      | none =>
        rw [right] at worth
        cases worth
      | some e =>
        rw [right, literalValue?, literalValue] at worth
        split at worth
        · rename_i literal
          exact Or.inr ⟨fault, p, e, left, right, literal, map_eq_error.mp worth, beyond⟩
        · cases worth
  · have noFallback : ∀ p, ¬ LeftOfFallback t above p := not_exists.mp fallback
    by_cases under : UnderCondition t above
    · exact Or.inl ⟨_, .condition noFallback under⟩
    · exact Or.inl ⟨_, .unguarded noFallback under⟩

/-! ### Trees that guard nothing -/

/-- Trees that have the same fallbacks and conditions above them are guarded alike. -/
theorem guardOf_congr {above' : List Tree}
    (fallback : ∀ p, LeftOfFallback t above p ↔ LeftOfFallback t above' p)
    (condition : UnderCondition t above ↔ UnderCondition t above') :
    guardOf t above = guardOf t above' := by
  have right : fallbackRight? t above = fallbackRight? t above' := by
    refine Option.ext fun r => ?_
    rw [fallbackRight?_eq_some, fallbackRight?_eq_some]
    simp only [fallback]
  have under : inCondition guardDepth t above = inCondition guardDepth t above' := by
    rw [Bool.eq_iff_iff, inCondition_guardDepth_iff, inCondition_guardDepth_iff, condition]
  rw [guardOf, guardOf, right, under]

theorem outermost_append (t p : Tree) (inner between : List Tree) :
    outermost t (inner ++ p :: between) = outermost p between := by
  induction inner generalizing t with
  | nil => exact outermost_cons t p between
  | cons q inner ih => rw [List.cons_append, outermost_cons, ih]

/-- Whatever follows it, a fallback or a condition on the first part of a path guards. -/
theorem LeftOfFallback.append {q : Tree} (h : LeftOfFallback t inner q) (rest : List Tree) :
    LeftOfFallback t (inner ++ rest) q := by
  obtain ⟨before, after, rfl, falls⟩ := h
  exact ⟨before, after ++ rest, by rw [List.append_assoc, List.cons_append], falls⟩

theorem UnderCondition.append (h : UnderCondition t inner) (rest : List Tree) :
    UnderCondition t (inner ++ rest) := by
  obtain ⟨before, p, after, rfl, under⟩ := h
  exact ⟨before, p, after ++ rest, by rw [List.append_assoc, List.cons_append], under⟩

theorem FallbackAt.notMem {q : Tree} (h : FallbackAt t inner q) (other : p.kind ≠ .parenthesized) :
    p ∉ inner := fun mem => other (h.pairs p mem)

theorem ConditionAt.notMem {q : Tree} (h : ConditionAt t inner q)
    (decides : p.kind = .ternaryExpression ∨ p.kind = .ifStatement) : p ∉ inner := by
  intro mem
  have carried := h.carried p mem
  rcases decides with kind | kind <;> simp [kind] at carried

/-- A condition guards nothing outside of it, and lets nothing above it guard. -/
theorem guardOf_outside (decides : p.kind = .ternaryExpression ∨ p.kind = .ifStatement)
    (outside : (outermost t inner).role ≠ .condition) (rest : List Tree) :
    guardOf t (inner ++ p :: rest) = guardOf t inner := by
  have other : p.kind ≠ .parenthesized ∧ p.kind ≠ .binaryExpression := by
    rcases decides with kind | kind <;> rw [kind] <;> decide
  refine guardOf_congr (fun q => ⟨?_, fun h => h.append _⟩) ⟨?_, fun h => h.append _⟩
  · rintro ⟨inner', rest', split, falls⟩
    obtain ⟨-, rfl, -⟩ | ⟨between, rfl, -⟩ | ⟨between, rfl, -⟩ := split_cases split
    · exact absurd falls.binary other.2
    · exact ⟨inner', between, rfl, falls⟩
    · exact absurd List.mem_append_cons_self (falls.notMem other.1)
  · rintro ⟨inner', q, rest', split, under⟩
    obtain ⟨rfl, rfl, -⟩ | ⟨between, rfl, -⟩ | ⟨between, rfl, -⟩ := split_cases split
    · exact absurd under.condition outside
    · exact ⟨inner', q, between, rfl, under⟩
    · exact absurd List.mem_append_cons_self (under.notMem decides)

variable {p' : Tree}

theorem LeftOfFallback.swap {q : Tree} (binary : p.kind = .binaryExpression)
    (right : (outermost t inner).role = .right) (h : LeftOfFallback t (inner ++ p :: rest) q) :
    LeftOfFallback t (inner ++ p' :: rest) q := by
  obtain ⟨inner', rest', split, falls⟩ := h
  obtain ⟨rfl, -, -⟩ | ⟨between, rfl, -⟩ | ⟨between, rfl, -⟩ := split_cases split
  · rw [falls.left] at right
    cases right
  · have first : LeftOfFallback t (inner' ++ q :: between) q := ⟨inner', between, rfl, falls⟩
    exact first.append _
  · have other : p.kind ≠ .parenthesized := by rw [binary]; decide
    exact absurd List.mem_append_cons_self (falls.notMem other)

/-- Conditions reach through binary expressions alike, whatever their operators. -/
theorem UnderCondition.swap (binary : p.kind = .binaryExpression)
    (binary' : p'.kind = .binaryExpression) (role : p'.role = p.role)
    (h : UnderCondition t (inner ++ p :: rest)) : UnderCondition t (inner ++ p' :: rest) := by
  obtain ⟨inner', q, rest', split, under⟩ := h
  obtain ⟨rfl, rfl, -⟩ | ⟨between, rfl, -⟩ | ⟨between, rfl, rfl⟩ := split_cases split
  · have decides := under.decides
    simp [binary] at decides
  · have first : UnderCondition t (inner' ++ q :: between) := ⟨inner', q, between, rfl, under⟩
    exact first.append _
  · refine ⟨inner ++ p' :: between, q, rest', by rw [List.append_assoc, List.cons_append], ?_, ?_,
      under.decides, ?_⟩
    · have carried := under.carried
      simp only [List.forall_mem_append, List.forall_mem_cons] at carried ⊢
      exact ⟨carried.1, Or.inr (Or.inr binary'), carried.2.2⟩
    · simpa using under.near
    · have condition := under.condition
      rw [outermost_append] at condition ⊢
      cases between with
      | nil => exact role.trans condition
      | cons b between => rwa [outermost_cons] at condition ⊢

/-- A fallback guards nothing to its right: with another operator in its place the guard is the
same. -/
theorem guardOf_right (binary : p.kind = .binaryExpression)
    (binary' : p'.kind = .binaryExpression) (role : p'.role = p.role)
    (right : (outermost t inner).role = .right) (rest : List Tree) :
    guardOf t (inner ++ p' :: rest) = guardOf t (inner ++ p :: rest) :=
  guardOf_congr
    (fun _ => ⟨fun h => h.swap binary' right, fun h => h.swap binary right⟩)
    ⟨fun h => h.swap binary' binary role.symm, fun h => h.swap binary binary' role⟩

/-- Parentheses around the left operand of a fallback change nothing: what guards it is the right
operand alone. -/
theorem guardOf_pairs {t' : Tree} {inner' rest' : List Tree} (falls : FallbackAt t inner p)
    (falls' : FallbackAt t' inner' p') (right : p'.child? .right = p.child? .right)
    (rest : List Tree) :
    guardOf t' (inner' ++ p' :: rest') = guardOf t (inner ++ p :: rest) := by
  rw [guardOf_of_left ⟨inner', rest', rfl, falls'⟩,
    guardOf_of_left ⟨inner, rest, rfl, falls⟩, right]

/-- The guard that is found is the one that the trees above give: a fallback to whose left the
access stands, else a condition that it lies in. It is found just when the text to the right of the
fallback has no escape by a code beyond the last code point. Parentheses around the left operand
change nothing; to the right of a fallback its operator does not matter, and outside of a condition
nothing from there on does. -/
theorem guardOf_exact_iff (t : Tree) (above : List Tree) :
    (∀ g, guardOf t above = .ok g ↔ GuardedAs t above g) ∧
    ((∃ g, guardOf t above = .ok g) ↔ ∀ fault, ¬ UnreadableFallback t above fault) ∧
    (∀ fault, UnreadableFallback t above fault → guardOf t above = .error fault) ∧
    ∀ inner p rest, above = inner ++ p :: rest →
      (FallbackAt t inner p → ∀ t' inner' p' rest', FallbackAt t' inner' p' →
        p'.child? .right = p.child? .right → guardOf t' (inner' ++ p' :: rest') = guardOf t above) ∧
      (p.kind = .binaryExpression → (outermost t inner).role = .right →
        ∀ p' : Tree, p'.kind = .binaryExpression → p'.role = p.role →
          guardOf t (inner ++ p' :: rest) = guardOf t above) ∧
      (p.kind = .ternaryExpression ∨ p.kind = .ifStatement →
        (outermost t inner).role ≠ .condition → guardOf t above = guardOf t inner) := by
  refine ⟨fun g => ⟨fun found => ?_, GuardedAs.guardOf_eq⟩, ⟨?_, fun calm => ?_⟩,
    fun _ => UnreadableFallback.guardOf_eq, ?_⟩
  · rcases guardedAs_or_unreadable t above with ⟨g', guarded⟩ | ⟨fault, unreadable⟩
    · cases found.symm.trans guarded.guardOf_eq
      exact guarded
    · cases found.symm.trans unreadable.guardOf_eq
  · rintro ⟨g, found⟩ fault unreadable
    cases found.symm.trans unreadable.guardOf_eq
  · rcases guardedAs_or_unreadable t above with ⟨g, guarded⟩ | ⟨fault, unreadable⟩
    · exact ⟨g, guarded.guardOf_eq⟩
    · exact absurd unreadable (calm fault)
  · rintro inner p rest rfl
    exact ⟨fun falls _ _ _ _ falls' right => guardOf_pairs falls falls' right rest,
      fun binary right _ binary' role => guardOf_right binary binary' role right rest,
      fun decides outside => guardOf_outside decides outside rest⟩

/-- The tree of `(e)`. -/
def inPair (r : Role) (e : Tree) : Tree :=
  .node r .parenthesized [frontToken .plain .mark "(", e.as .plain, frontToken .plain .mark ")"]

/-- The tree of a fallback to a literal. -/
def orLiteral (a : Tree) (literal : String) : Tree :=
  .node .plain .binaryExpression [a, frontToken .operator .mark "??",
    frontToken .right .string literal]

/-- The parentheses around the access in `((process.env.K)) ?? 'x'`. -/
def pairsK : List Tree := [inPair .plain accessK, inPair .left (inPair .plain accessK)]

/-- The tree of `((process.env.K)) ?? 'x'`. -/
def pairedK : Tree := orLiteral (inPair .left (inPair .plain accessK)) "'x'"

theorem pairsK_fallback : FallbackAt (accessK.as .plain) pairsK pairedK where
  pairs := by decide
  atMost := by decide
  binary := rfl
  operator := ⟨_, rfl, by decide⟩
  left := rfl

/-- In `((process.env.K)) ?? 'x'` the access is guarded as it is in `process.env.K ?? 'x'`. -/
theorem guardOf_pairsK :
    FallbackAt (accessK.as .plain) pairsK pairedK ∧ FallbackAt accessK [] fallbackK ∧
    guardOf (accessK.as .plain) (pairsK ++ [pairedK]) = guardOf accessK [fallbackK] ∧
    guardOf accessK [fallbackK] = .ok ⟨true, some "x"⟩ := by
  have falls : FallbackAt accessK [] fallbackK :=
    ⟨by simp, by decide, rfl, ⟨_, rfl, by decide⟩, rfl⟩
  obtain ⟨exact_, -, -, laws⟩ := guardOf_exact_iff accessK [fallbackK]
  refine ⟨pairsK_fallback, falls, ?_, ?_⟩
  · exact (laws [] fallbackK [] rfl).1 falls _ _ _ [] pairsK_fallback rfl
  · refine (exact_ _).mpr (.fallback ⟨[], [], rfl, falls⟩ ?_)
    exact .decoded rfl (by decide : decodeEscapes (innerText "'x'".toList) = .ok ['x'])

/-- The tree of `process.env.K ?? '\u{110000}'`. -/
def fallbackBeyond : Tree := orLiteral accessK "'\\u\x7b110000\x7d'"

/-- The access stands to the left of the fallback, but no guard is found for it. -/
theorem beyondFallback_not_guarded :
    LeftOfFallback accessK [fallbackBeyond] fallbackBeyond ∧
      ¬ ∃ g, guardOf accessK [fallbackBeyond] = .ok g := by
  have fails : guardOf accessK [fallbackBeyond] = .error (.beyondCodePoints 0x110000) := by
    decide
  refine ⟨⟨[], [], rfl, ⟨by simp, by decide, rfl, ⟨_, rfl, by decide⟩, rfl⟩⟩, ?_⟩
  rintro ⟨g, found⟩
  cases fails.symm.trans found

end EnvCensus.Script
