import EnvCensus.Display.Width
import EnvCensus.Text.Blank
import EnvCensus.Text.Lines

/-! Wrapping.  A text is laid out in lines of a given number of cells.  Lines break before words; a
word wider than a line is folded over several lines or cut with an ellipsis.  A panel is a text in a
frame with round corners and a title in the middle of its upper edge. -/
namespace EnvCensus.Display

/-- What becomes of a word that is wider than a line. -/
inductive Overflow where
  | fold
  | ellipsis
  deriving DecidableEq, Repr

/-- Where a text stands in its line; `free` leaves it as it is. -/
inductive Justify where
  | free
  | left
  | center
  | right
  deriving DecidableEq, Repr

/-- Distance of tab stops. -/
def tabStop : Nat := 8

/-- A line that starts at a position with blanks in place of its tabs. -/
def expandTabs (position : Nat) : List Char → List Char
  | [] => []
  | '\t' :: rest =>
    let next := (position / tabStop + 1) * tabStop
    blanks (next - position) ++ expandTabs next rest
  | c :: rest => c :: expandTabs (position + charCells c) rest

theorem length_dropWhile_le (p : Char → Bool) (cs : List Char) :
    (cs.dropWhile p).length ≤ cs.length :=
  (List.dropWhile_sublist (p := p) (l := cs)).length_le

/-- What follows a word and the blanks after it is shorter than the line. -/
theorem length_afterWord_lt {cs core : List Char} {c : Char}
    (h : cs.dropWhile Text.isBlank = c :: core) :
    ((core.dropWhile fun d => !Text.isBlank d).dropWhile Text.isBlank).length < cs.length := by
  have h1 := length_dropWhile_le Text.isBlank cs
  have h2 := length_dropWhile_le (fun d => !Text.isBlank d) core
  have h3 := length_dropWhile_le Text.isBlank (core.dropWhile fun d => !Text.isBlank d)
  rw [h] at h1
  simp only [List.length_cons] at h1
  omega

/-- The words of a line, each with the blanks around it; blanks between two words go with the
first. -/
def words (cs : List Char) : List (List Char) :=
  let lead := cs.takeWhile Text.isBlank
  match h : cs.dropWhile Text.isBlank with
  | [] => []
  | c :: core =>
    let rest := core.dropWhile fun d => !Text.isBlank d
    have : (rest.dropWhile Text.isBlank).length < cs.length := length_afterWord_lt h
    (lead ++ c :: core.takeWhile (fun d => !Text.isBlank d) ++ rest.takeWhile Text.isBlank) ::
      words (rest.dropWhile Text.isBlank)
termination_by cs.length

/-- The pieces of a word, each as long as fits into `width` cells; `done` is the current piece in
reverse. -/
def chop (width : Nat) (done : List Char) : List Char → List (List Char)
  | [] => if done.isEmpty then [] else [done.reverse]
  | c :: rest =>
    if cells (c :: done).reverse ≤ width || done.isEmpty then chop width (c :: done) rest
    else done.reverse :: chop width [c] rest

/-- Places at which pieces start that follow each other from a place. -/
def startsFrom (start : Nat) : List (List Char) → List Nat
  | [] => []
  | p :: rest => start :: startsFrom (start + p.length) rest

/-- The places at which a line breaks, given its words; the first word starts at `start` and
`offset` cells of its line are taken. -/
def breaks (width : Nat) (overflow : Overflow) (start offset : Nat) :
    List (List Char) → List Nat
  | [] => []
  | w :: rest =>
    let size := cells (Text.trimRight w)
    let next := start + w.length
    if offset + size ≤ width then breaks width overflow next (offset + cells w) rest
    else if size > width then
      match overflow with
      | .fold =>
        let pieces := chop width [] w
        startsFrom start pieces ++
          breaks width overflow next (cells (pieces.getLastD [])) rest
      | .ellipsis => start :: breaks width overflow next (cells w) rest
    else start :: breaks width overflow next (cells w) rest

/-- The parts of a text between places in increasing order; `start` is the place of its
beginning. -/
def divide (start : Nat) (places : List Nat) (cs : List Char) : List (List Char) :=
  match places with
  | [] => [cs]
  | p :: rest =>
    if p ≤ start then divide start rest cs
    else cs.take (p - start) :: divide p rest (cs.drop (p - start))

/-- A line without blanks at its end, as far as it is too long by them. -/
def stripEnd (width : Nat) (cs : List Char) : List Char :=
  let trailing := cs.length - (Text.trimRight cs).length
  cs.take (cs.length - min trailing (cs.length - width))

/-- A line in no more than `width` cells. -/
def truncate (width : Nat) (overflow : Overflow) (cs : List Char) : List Char :=
  if cells cs ≤ width then cs
  else
    match overflow with
    | .fold => fit width cs
    | .ellipsis => fit (width - 1) cs ++ ['…']

/-- A line at its place between blanks. -/
def justified (width : Nat) (overflow : Overflow) (justify : Justify) (cs : List Char) :
    List Char :=
  match justify with
  | .free => cs
  | .left =>
    let cs := truncate width overflow cs
    cs ++ blanks (width - cells cs)
  | .center =>
    let cs := truncate width overflow (Text.trimRight cs)
    let left := (width - cells cs) / 2
    blanks left ++ cs ++ blanks (width - left - cells cs)
  | .right =>
    let cs := truncate width overflow (Text.trimRight cs)
    blanks (width - cells cs) ++ cs

/-- A text in lines of `width` cells. -/
def wrap (width : Nat) (overflow : Overflow) (justify : Justify) (cs : List Char) :
    List (List Char) :=
  (Text.feedLines cs).flatMap fun line =>
    let line := expandTabs 0 line
    (divide 0 (breaks width overflow 0 0 (words line)) line).map fun part =>
      truncate width overflow (justified width overflow justify (stripEnd width part))

/-- The title in the middle of a line of `width` cells. -/
def titleLine (width : Nat) (title : List Char) : List Char :=
  let shown := truncate width .fold (' ' :: title ++ [' '])
  let left := (width - cells shown) / 2
  List.replicate left '─' ++ shown ++ List.replicate (width - left - cells shown) '─'

/-- The lines of a panel of `width` cells. -/
def panel (width : Nat) (title content : List Char) : List (List Char) :=
  let inner := width - 4
  let top :=
    if width ≤ 4 then List.replicate (width - 2) '─' else '─' :: titleLine inner title ++ ['─']
  let body := (wrap inner .fold .free content).map fun line =>
    '│' :: ' ' :: fit inner line ++ [' ', '│']
  ('╭' :: top ++ ['╮']) :: body ++ ['╰' :: List.replicate (width - 2) '─' ++ ['╯']]

end EnvCensus.Display
