/-! Lines of a text.  `lines` breaks at every line boundary, be it a line feed, a carriage return,
both together, a vertical tab, a form feed, one of three information separators, the next-line
control or one of the two line separators; a boundary at the end opens no further line.
`feedLines` breaks at line feeds only and keeps the empty line after the last one. -/
namespace EnvCensus.Text

/-- Characters that end a line by themselves. -/
def isLineBreak (c : Char) : Bool :=
  let n := c.toNat
  (10 ≤ n && n ≤ 13) || (28 ≤ n && n ≤ 30) || n == 0x85 || n == 0x2028 || n == 0x2029

/-- The first line and what follows its boundary; `none` in place of the rest when no boundary
ends the line. -/
def splitLine : List Char → List Char × Option (List Char)
  | [] => ([], none)
  | '\r' :: '\n' :: rest => ([], some rest)
  | c :: rest =>
    if isLineBreak c then ([], some rest)
    else
      let (line, after) := splitLine rest
      (c :: line, after)

theorem splitLine_length (cs line rest : List Char) (h : splitLine cs = (line, some rest)) :
    rest.length < cs.length := by
  fun_induction splitLine cs generalizing line with
  | case1 => simp at h
  | case2 r => simp only [Prod.mk.injEq, Option.some.injEq] at h; rw [← h.2]; simp only [List.length_cons]; omega
  | case3 c r _ hb => simp only [Prod.mk.injEq, Option.some.injEq] at h; simp [← h.2]
  | case4 c r _ hb l a hs ih =>
    simp only [Prod.mk.injEq] at h
    have := ih l (by rw [hs, h.2])
    simp only [List.length_cons]
    omega

/-- The lines of a text, without their boundaries. -/
def lines (cs : List Char) : List (List Char) :=
  match h : splitLine cs with
  | (line, some rest) =>
    have : rest.length < cs.length := splitLine_length cs line rest h
    line :: lines rest
  | (line, none) => if line.isEmpty then [] else [line]
termination_by cs.length

theorem length_of_dropWhile_eq {p : Char → Bool} {cs rest : List Char} {c : Char}
    (h : cs.dropWhile p = c :: rest) : rest.length < cs.length := by
  have := (List.dropWhile_sublist (p := p) (l := cs)).length_le
  rw [h] at this
  simp only [List.length_cons] at this
  omega

/-- The pieces between line feeds, always at least one. -/
def feedLines (cs : List Char) : List (List Char) :=
  match h : cs.dropWhile (· ≠ '\n') with
  | [] => [cs]
  | _ :: rest =>
    have : rest.length < cs.length := length_of_dropWhile_eq h
    cs.takeWhile (· ≠ '\n') :: feedLines rest
termination_by cs.length

/-- One line break convention: a carriage return, alone or with the line feed after it, becomes
a line feed. -/
def unifyBreaks : List Char → List Char
  | [] => []
  | '\r' :: '\n' :: rest => '\n' :: unifyBreaks rest
  | '\r' :: rest => '\n' :: unifyBreaks rest
  | c :: rest => c :: unifyBreaks rest

end EnvCensus.Text
