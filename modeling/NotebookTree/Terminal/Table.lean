import NotebookTree.Terminal.Wrap

/-!
# Tables

A table with a title, a header and rows, drawn with lines around its cells. A column is as wide as
its widest cell; if the table does not fit, the widest columns are made narrower.

## Main definitions

* `Column`, `Table`: what is drawn.
* `Table.widths`: the widths of the columns.
* `Table.draw`: the lines of a table.

Reference: the table of `_handle_outputs`, as the engine for lines draws it.
-/

namespace NotebookTree.Terminal

/-- A column: its header, and whether its cells are set to the right. -/
structure Column where
  header : String
  toRight : Bool := false

/-- A table; each row has a cell for each column. -/
structure Table where
  title : String
  columns : List Column
  rows : List (List String)

/-- The blanks on both sides of a cell. -/
def cellPadding : Nat := 2

/-- The width that a cell would like to have. -/
def naturalWidth (s : String) : Nat :=
  ((Text.allLines (dropControls s.toList)).map Text.cells).foldl max 0 + cellPadding

namespace Table

/-- The cells of a column, its header first. -/
def column (t : Table) (i : Nat) (c : Column) : List String :=
  c.header :: t.rows.map (fun r => (r[i]?).getD "")

/-- The widths the columns would like to have. -/
def naturalWidths (t : Table) : List Nat :=
  t.columns.zipIdx.map (fun c => ((t.column c.2 c.1).map naturalWidth).foldl max 0)

/-- Takes something away from the widest columns, each in turn and none more than `most`, so that
`excess` is shared among the `count` of them. A half is rounded to the even neighbour. -/
def reduceWidest (widest most : Nat) : (excess count : Nat) → List Nat → List Nat
  | _, _, [] => []
  | excess, count, w :: ws =>
    if w == widest && count != 0 then
      let share := excess / count
      let surplus := 2 * (excess % count)
      let rounded :=
        if count < surplus || (surplus == count && share % 2 == 1) then share + 1 else share
      let taken := min most rounded
      (w - taken) :: reduceWidest widest most (excess - taken) (count - 1) ws
    else w :: reduceWidest widest most excess count ws

/-- The width of columns together. -/
def total (ws : List Nat) : Nat := ws.foldl (· + ·) 0

/-- Makes the widest columns narrower until all fit, at most `fuel` times. -/
def collapse (room : Nat) : (fuel : Nat) → List Nat → List Nat
  | 0, ws => ws
  | fuel + 1, ws =>
    let excess := total ws - room
    let widest := ws.foldl max 0
    let second := (ws.filter (· != widest)).foldl max 0
    if excess == 0 || widest == second then ws
    else collapse room fuel
      (reduceWidest widest (min excess (widest - second)) excess (ws.count widest) ws)

/-- The widths of the columns when the table may be `width` cells wide. -/
def widths (t : Table) (width : Nat) : List Nat :=
  let ws := t.naturalWidths
  let room := width - (ws.length + 1)
  collapse room (total ws + 1) ws

/-- The lines of a cell, each as wide as the cell. -/
def cellLines (width : Nat) (toRight : Bool) (s : String) : List (List Char) :=
  let room := width - cellPadding
  (wrap room .ellipsis s).map (fun l =>
    let shown := if toRight
      then fillStart room (truncate room .ellipsis (Text.stripEnd Text.isBlank l))
      else fillEnd room (truncate room .ellipsis l)
    ' ' :: shown ++ [' '])

/-- Lines with something between them, and at both ends. -/
def framed (left between right : String) (parts : List (List Char)) : List Char :=
  left.toList ++ between.toList.intercalate parts ++ right.toList

/-- A rule across the table. -/
def rule (left line between right : String) (ws : List Nat) : List Char :=
  framed left between right (ws.map (fun w => (List.replicate w line.toList).flatten))

/-- The lines of a row; cells with fewer lines than others are filled up. -/
def rowLines (bar : String) (t : Table) (ws : List Nat) (row : List String) : List (List Char) :=
  let cells := (t.columns.zip (ws.zip row)).map (fun c => cellLines c.2.1 c.1.toRight c.2.2)
  let height := (cells.map List.length).foldl max 1
  (List.range height).map (fun i =>
    framed bar bar bar ((ws.zip cells).map (fun c => (c.2[i]?).getD (List.replicate c.1 ' '))))

/-- The lines of the title, in the middle above the table. -/
def titleLines (width : Nat) (s : String) : List (List Char) :=
  (wrap width .fold s).map (fun l =>
    fillBoth width (truncate width .fold (Text.stripEnd Text.isBlank l)))

/-- The lines of a table that may be `width` cells wide. -/
def draw (t : Table) (width : Nat) : List (List Char) :=
  let ws := t.widths width
  titleLines (total ws + ws.length + 1) t.title
    ++ [rule "┏" "━" "┳" "┓" ws]
    ++ rowLines "┃" t ws (t.columns.map Column.header)
    ++ [rule "┡" "━" "╇" "┩" ws]
    ++ t.rows.flatMap (rowLines "│" t ws)
    ++ [rule "└" "─" "┴" "┘" ws]

end Table

end NotebookTree.Terminal
