import EnvCensus.Display.Wrap

/-! Tables.  A column is as wide as its widest cell; when the table does not fit, the widest
columns give way first, down to the next widest, and at last all columns evenly. -/
namespace EnvCensus.Display

structure Column where
  header : String
  justify : Justify := .left
  /-- The width of all cells, when it does not hang on what they hold. -/
  width : Option Nat := none
  deriving DecidableEq, Repr

structure Table where
  columns : List Column
  rows : List (List (List Char))
  bordered : Bool := true

namespace Table

/-- The cells that a text takes in its widest line. -/
def contentWidth (cs : List Char) : Nat := ((Text.lines cs).map cells).foldl max 0

/-- Blanks beside the text of a cell. -/
def padding : Nat := 2

/-- The width of a cell with its blanks, where no more than `limit` cells are free. -/
def cellWidth (limit : Nat) (cs : List Char) : Nat :=
  if limit ≤ padding then limit else min (contentWidth cs + padding) limit

/-- The width of a column with these cells. -/
def columnWidth (limit : Nat) (c : Column) (texts : List (List Char)) : Nat :=
  match c.width with
  | some w => min (w + padding) limit
  | none => (texts.map (cellWidth limit)).foldl max 0

/-- The cells of each column, its header first. -/
def columnTexts (t : Table) : List (Column × List (List Char)) :=
  t.columns.mapIdx fun i c => (c, c.header.toList :: t.rows.map fun r => r.getD i [])

/-- The whole number next to a quotient, of two the even one. -/
def roundedQuotient (n d : Nat) : Nat :=
  let q := n / d
  let twice := 2 * (n % d)
  if twice < d then q else if twice > d then q + 1 else if q % 2 == 0 then q else q + 1

/-- Takes `total` off the chosen widths evenly, off each no more than its bound. -/
def reduce (total chosen : Nat) : List (Bool × Nat × Nat) → List Nat
  | [] => []
  | (true, bound, width) :: rest =>
    let share := min bound (roundedQuotient total chosen)
    (width - share) :: reduce (total - share) (chosen - 1) rest
  | (false, _, width) :: rest => width :: reduce total chosen rest

/-- Widths that are reduced evenly where the mark is set and the bound is not zero. -/
def reduceChosen (total : Nat) (ws : List (Bool × Nat × Nat)) : List Nat :=
  let ws := ws.map fun (chosen, bound, width) => (chosen && bound != 0, bound, width)
  reduce total (ws.countP fun w => w.1) ws

/-- The number of cells that columns of these widths take together. -/
def together (ws : List Nat) : Nat := ws.foldr (· + ·) 0

/-- The widths after the widest flexible columns have given way, in at most `fuel` steps. -/
def collapse (limit : Nat) (flexible : List Bool) : Nat → List Nat → List Nat
  | 0, widths => widths
  | fuel + 1, widths =>
    let excess := together widths - limit
    let marked := flexible.zip widths
    let widest := (marked.map fun (f, w) => if f then w else 0).foldl max 0
    let second := (marked.map fun (f, w) => if f && w != widest then w else 0).foldl max 0
    if excess == 0 || widest == second then widths
    else
      collapse limit flexible fuel (reduceChosen excess
        (marked.map fun (f, w) => (f && w == widest, min excess (widest - second), w)))

/-- The widths of the columns of a table for which `limit` cells are free, its edges apart. -/
def widths (t : Table) (limit : Nat) : List Nat :=
  let natural := t.columnTexts.map fun (c, texts) => max 1 (columnWidth limit c texts)
  if together natural ≤ limit then natural
  else
    let collapsed := collapse limit (t.columns.map fun c => c.width.isNone) (together natural) natural
    let reduced :=
      if together collapsed ≤ limit then collapsed
      else reduceChosen (together collapsed - limit) (collapsed.map fun w => (true, w, w))
    List.zipWith (fun w (c, texts) => columnWidth w c texts) reduced t.columnTexts

/-- The lines of a cell, with blanks beside them. -/
def cellLines (width : Nat) (justify : Justify) (cs : List Char) : List (List Char) :=
  (wrap (width - padding) .ellipsis justify cs).map fun line =>
    fit width (' ' :: fit (width - padding) line ++ [' '])

/-- The cell in `height` lines, with empty lines above it in a header and below it elsewhere. -/
def stretched (header : Bool) (height width : Nat) (lines : List (List Char)) :
    List (List Char) :=
  let gap := List.replicate (height - lines.length) (blanks width)
  if header then gap ++ lines else lines ++ gap

/-- A line that joins pieces between a left and a right edge. -/
def joined (left between right : List Char) (pieces : List (List Char)) : List Char :=
  left ++ (between.intercalate pieces) ++ right

/-- The lines of a row. -/
def rowLines (edge : List Char) (header : Bool) (columns : List (Nat × Justify))
    (row : List (List Char)) : List (List Char) :=
  let shaped := List.zipWith (fun (w, j) cs => (w, cellLines w j cs)) columns row
  let height := (shaped.map fun s => s.2.length).foldl max 1
  let full := shaped.map fun (w, lines) => stretched header height w lines
  (List.range height).map fun i => joined edge edge edge (full.map fun lines => lines.getD i [])

/-- A line of the frame, with a stroke of each column's width. -/
def ruleLine (left stroke between right : Char) (widths : List Nat) : List Char :=
  joined [left] [between] [right] (widths.map fun w => List.replicate w stroke)

/-- The lines of a table on a display of `width` cells. -/
def lines (t : Table) (width : Nat) : List (List Char) :=
  let edges := if t.bordered then t.columns.length + 1 else 0
  let ws := t.widths (width - edges)
  let columns := ws.zip (t.columns.map (·.justify))
  let header := t.columns.map fun c => c.header.toList
  if t.bordered then
    ruleLine '┏' '━' '┳' '┓' ws :: rowLines ['┃'] true columns header ++
      ruleLine '┡' '━' '╇' '┩' ws :: t.rows.flatMap (rowLines ['│'] false columns) ++
      [ruleLine '└' '─' '┴' '┘' ws]
  else rowLines [] true columns header ++ t.rows.flatMap (rowLines [] false columns)

end Table

end EnvCensus.Display
