import EnvCensus.Script.Literal

/-! Guards: an access that a program survives without.  The left operand of a fallback operator
is guarded and may have a default, and so is a condition, without one.  A tree is looked at from
below, together with the trees above it. -/
namespace EnvCensus.Script

/-- How many trees above an access are looked at. -/
def guardDepth : Nat := 3

structure Guard where
  guarded : Bool
  default : Option String
  deriving DecidableEq, Repr

def Guard.none : Guard := ⟨false, .none⟩

/-- The tree with the parentheses directly around it, at most `n` pairs, and the trees above. -/
def withParentheses : Nat → Tree → List Tree → Tree × List Tree
  | n + 1, t, p :: above =>
    if p.kind = .parenthesized then withParentheses n p above else (t, p :: above)
  | _, t, above => (t, above)

def fallbackOperators : List (List Char) := ["||".toList, "??".toList]

/-- The right operand of the fallback whose left operand the tree is. -/
def fallbackRight? (t : Tree) (above : List Tree) : Option (Option Tree) :=
  match withParentheses guardDepth t above with
  | (operand, p :: _) =>
    if p.kind = .binaryExpression && operand.role == .left &&
        ((p.child? .operator).any fun o => fallbackOperators.contains o.text) then
      some (p.child? .right)
    else .none
  | (_, []) => .none

/-- Trees through which a condition reaches down to an access. -/
def carriesCondition (k : Kind) : Bool :=
  [Kind.parenthesized, .unaryExpression, .binaryExpression].contains k

/-- Whether one of the first `n` trees above decides by a condition that the tree lies in. -/
def inCondition : Nat → Tree → List Tree → Bool
  | n + 1, t, p :: above =>
    if p.kind = .ternaryExpression || p.kind = .ifStatement then t.role == .condition
    else carriesCondition p.kind && inCondition n p above
  | _, _, _ => false

/-- How an access below the given trees is guarded. -/
def guardOf (t : Tree) (above : List Tree) : Except EscapeFault Guard :=
  match fallbackRight? t above with
  | some right => (literalValue? right).map fun d => ⟨true, d⟩
  | .none => .ok ⟨inCondition guardDepth t above, .none⟩

end EnvCensus.Script
