/-! Control sequences, the orders to a terminal within a text.  One is an escape and a bracket, then
figures, then the letter that tells the order.  Where a text goes to no terminal they are left
out. -/
namespace EnvCensus.Display

/-- Digits and signs that stand between the bracket and the letter. -/
def isFigure (c : Char) : Bool := c.isDigit || c == ';' || c == '?'

/-- What follows the control sequence at the front of a text, if there is one. -/
def afterSequence? : List Char → Option (List Char)
  | '\x1b' :: '[' :: rest =>
    match rest.dropWhile isFigure with
    | c :: after => if c.isAlpha then some after else none
    | [] => none
  | _ => none

theorem afterSequence?_length {cs rest : List Char} (h : afterSequence? cs = some rest) :
    rest.length < cs.length := by
  unfold afterSequence? at h
  split at h
  · rename_i tail
    have shorter := (List.dropWhile_sublist (p := isFigure) (l := tail)).length_le
    split at h
    · rename_i c after cut
      rw [cut] at shorter
      split at h
      · cases h
        simp only [List.length_cons] at shorter ⊢
        omega
      · cases h
    · cases h
  · cases h

/-- The text without its control sequences. -/
def withoutSequences (cs : List Char) : List Char :=
  match cs with
  | [] => []
  | c :: cs =>
    match h : afterSequence? (c :: cs) with
    | some rest =>
      have : rest.length ≤ cs.length := Nat.le_of_lt_succ (afterSequence?_length h)
      withoutSequences rest
    | none => c :: withoutSequences cs
termination_by cs.length

end EnvCensus.Display
