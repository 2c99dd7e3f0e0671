import NotebookTree.Markdown.Block.Line

/-!
# Tables

A table is a header line, a line of dashes that sets the alignment of the columns, and rows. Either
the header line stands between bars, and every row starts with one, or the lines have bars only
between their cells.

Reference: the plugin for tables that `create_markdown_processor` asks its engine for.
-/

namespace NotebookTree.Markdown

/-- Splits a row at its bars, except escaped ones. `done` holds the cell read so far, in reverse
order, and `escaped` tells whether the next character is escaped. -/
def splitCellsFrom (done : List Char) (escaped : Bool) : List Char → List (List Char)
  | [] => [done.reverse]
  | c :: cs =>
    if c == '|' && !escaped then done.reverse :: splitCellsFrom [] false cs
    else splitCellsFrom (c :: done) (c == Text.backslash && !escaped) cs

/-- The cells of a row. -/
def splitCells (row : List Char) : List (List Char) :=
  (splitCellsFrom [] false (Text.trim row)).map Text.trim

/-- The alignment a cell of the dashed line sets. -/
def alignment? (cell : List Char) : Option Alignment :=
  let body := Text.strip (· == ' ') cell
  let dashes := Text.strip (· == ':') body
  let isDashed (colonsLeft colonsRight : Nat) : Bool :=
    !dashes.isEmpty && dashes.all (· == '-') &&
      body == List.replicate colonsLeft ':' ++ dashes ++ List.replicate colonsRight ':'
  if isDashed 1 1 then some .center
  else if isDashed 1 0 then some .left
  else if isDashed 0 1 then some .right
  else none

/-- Whether a cell of the dashed line is well formed: dashes, perhaps with a colon at either end. -/
def isAlignCell (cell : List Char) : Bool :=
  let body := Text.strip (· == ' ') cell
  let inner := if body.head? == some ':' then body.drop 1 else body
  (if inner.getLast? == some ':' then inner.dropLast else inner).all (· == '-')

/-- The text of a line between bars. -/
def betweenBars? (l : Line) : Option (List Char) :=
  match behindIndent? 3 l with
  | some ('|' :: rest) =>
    let body := Text.stripEnd isLineBlank rest
    if body.getLast? == some '|' then some body.dropLast else none
  | _ => none

/-- The text of a row that starts with a bar, without the one that may stand at its end. -/
def barredRow? (l : Line) : Option (List Char) :=
  match l.dropWhile (· == ' ') with
  | '|' :: rest =>
    let body := Text.stripEnd isLineBlank rest
    some (if body.getLast? == some '|' then body.dropLast else body)
  | _ => none

/-- The dashed line between bars. -/
def barredAligns? (l : Line) : Option (List Char) :=
  match betweenBars? l with
  | none => none
  | some body => if (splitCells body).all isAlignCell then some body else none

/-- A header line without outer bars. -/
def openHeader? (l : Line) : Option (List Char) :=
  match behindIndent? 3 l with
  | some (c :: rest) =>
    if !Text.isBlank c && rest.contains '|' then some (c :: rest) else none
  | _ => none

/-- The dashed line without outer bars. -/
def openAligns? (l : Line) : Option (List Char) :=
  match behindIndent? 3 l with
  | some body => if body.contains '|' && (splitCells body).all isAlignCell then some body else none
  | none => none

/-- A table from its header, its dashed line and its rows; all have to have as many cells. -/
def tableOf? (header aligns : List Char) (rows : List (List Char)) : Option Block :=
  let head := splitCells header
  let columns := splitCells aligns
  let body := rows.map splitCells
  if head.length != columns.length || body.any (fun r => r.length != columns.length) then none
  else some (.table (columns.map alignment?) head body)

/-- What a table line could open: a table with the lines behind it, or nothing although the first
two lines look like one. -/
inductive TableStart where
  | table (block : Block) (rest : List Line)
  | failed
  | absent

/-- Reads a table. -/
def readTable (l : Line) (rest : List Line) : TableStart :=
  match rest with
  | [] => .absent
  | second :: more =>
    let barred : TableStart := match betweenBars? l, barredAligns? second with
      | some header, some aligns =>
        let rows := (more.map barredRow?).takeWhile Option.isSome |>.filterMap id
        match tableOf? header aligns rows with
        | some t => .table t (more.drop rows.length)
        | none => .failed
      | _, _ => .absent
    match barred with
    | .absent =>
      match openHeader? l, openAligns? second with
      | some header, some aligns =>
        let rows := more.takeWhile (·.contains '|')
        match tableOf? header aligns rows with
        | some t => .table t (more.drop rows.length)
        | none => .failed
      | _, _ => .absent
    | found => found

end NotebookTree.Markdown
