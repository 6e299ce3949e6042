/-
Tables of two columns or more in box-drawing characters: a centred title, a heavy head and light rows.

A column is as wide as its widest cell, with one space on either side. Where all columns together are too wide for the
screen, the widest ones give way, and their cells take several lines.
-/
import Componentry.Console.Wrapping
import Componentry.Text.Lines

namespace Componentry.Console

/-- a table: its title, the heads of its columns, and its rows -/
structure Table where
  title : Text
  heads : List Text
  rows : List (List Text)

namespace Table

/-! ## Widths -/

/-- the cells that a cell's widest line takes, with a space on either side -/
def cellWidth (cell : Text) : Nat := ((Text.lines cell).map Text.width).foldl max 0 + 2

/-- a quotient, rounded to the nearest number and a half to the even one -/
def roundedQuotient (a b : Nat) : Nat :=
  let q := a / b
  if 2 * (a % b) < b ∨ (2 * (a % b) = b ∧ q % 2 = 0) then q else q + 1

/-- takes cells away from the chosen columns in equal shares, none of them above a limit -/
def takeShares (limit : Nat) (chosen : Nat → Bool) : Nat → Nat → List Nat → List Nat
  | _, _, [] => []
  | total, sharers, w :: ws =>
    if chosen w ∧ sharers ≠ 0 then
      let share := min limit (roundedQuotient total sharers)
      (w - share) :: takeShares limit chosen (total - share) (sharers - 1) ws
    else w :: takeShares limit chosen total sharers ws

/-- narrows the widest columns until all fit in a number of cells; `fuel` bounds the number of steps -/
def narrowed (cells : Nat) : Nat → List Nat → List Nat
  | 0, ws => ws
  | fuel + 1, ws =>
    let excess := ws.sum - cells
    let widest := ws.foldl max 0
    let next := (ws.filter (· ≠ widest)).foldl max 0
    if excess = 0 ∨ widest = next then ws
    else narrowed cells fuel
      (takeShares (min excess (widest - next)) (· = widest) excess (ws.filter (· = widest)).length ws)

/-- the cells of all columns and the lines between them when the screen is `cells` wide -/
def widths (cells : Nat) (t : Table) : List Nat :=
  let room := cells - (t.heads.length + 1)
  let wanted := t.rows.foldl (fun ws row => List.zipWith (fun w cell => max w (cellWidth cell)) ws row)
    (t.heads.map cellWidth)
  narrowed room (room + 1) (wanted.map (min room))

/-! ## Lines -/

/-- a line of a row, between the given edges -/
def rowLine (edge : Char) (widths : List Nat) (cells : List Text) : Text :=
  edge :: (List.zipWith (fun w cell => Text.padded w ([' '] ++ cell) ++ [edge]) widths cells).flatten ++ ['\n']

/-- a row: as many lines as its tallest cell has -/
def row (edge : Char) (widths : List Nat) (cells : List Text) : Text :=
  let columns := List.zipWith (fun w cell => wrap .ellipsis (w - 2) cell) widths cells
  let height := (columns.map List.length).foldl max 1
  (List.range height).flatMap fun i => rowLine edge widths (columns.map fun lines => lines.getD i [])

/-- a line between rows: its left end, its stroke, where it crosses a column, and its right end -/
def rule (left stroke cross right : Char) (widths : List Nat) : Text :=
  [left] ++ Text.join [cross] (widths.map fun w => List.replicate w stroke) ++ [right, '\n']

/-- the cells that a whole line takes -/
def lineWidth (widths : List Nat) : Nat := widths.foldl (fun n w => n + w + 1) 1

/-- a text in the middle of a line, nearer to the left where the halves differ -/
def centred (width : Nat) (t : Text) : Text :=
  let free := width - Text.width t
  List.replicate (free / 2) ' ' ++ t ++ List.replicate (free - free / 2) ' ' ++ ['\n']

/-- the lines of a table on a screen -/
def text (cells : Nat) (t : Table) : Text :=
  let ws := t.widths cells
  centred (lineWidth ws) t.title ++
  rule '┏' '━' '┳' '┓' ws ++ row '┃' ws t.heads ++ rule '┡' '━' '╇' '┩' ws ++
  t.rows.flatMap (row '│' ws) ++ rule '└' '─' '┴' '┘' ws

end Table

end Componentry.Console
