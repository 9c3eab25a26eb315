/-
  NormalAlgorithm.Report.Table

  Tables with a title, a heading and a frame. A column is as wide as its widest
  line; a cell may have several lines, and its row is as high as its highest cell.

    * `Table`: title, columns and rows of cells.
    * `Table.map`: the table with other texts in it.
    * `Table.render`: the table as lines of output.
-/

import NormalAlgorithm.Text.Blank
import NormalAlgorithm.Text.Line
import NormalAlgorithm.Text.Split
import NormalAlgorithm.Text.Width

namespace NormalAlgorithm.Report

open NormalAlgorithm.Text

/-- On which side the cells of a column are filled up. -/
inductive Align where
  | left
  | right
  deriving DecidableEq, Repr

/-- A column. -/
structure Column where
  heading : List Char
  align : Align
  deriving DecidableEq, Repr

/-- A table. -/
structure Table where
  title : List Char
  columns : List Column
  rows : List (List (List Char))
  deriving DecidableEq, Repr

/-! ## Cells -/

/-- The greatest of some numbers. -/
def greatest (ns : List Nat) : Nat := ns.foldl max 0

/-- The width of a cell: that of its widest line. -/
def cellWidth (cell : List Char) : Nat := greatest ((splitLines cell).map width)

/-- A word with the blanks around it at the front of a text, and the rest. -/
def nextWord (s : List Char) : List Char × List Char :=
  let lead := s.takeWhile isBlank
  let rest := s.drop lead.length
  let word := rest.takeWhile (!isBlank ·)
  let rest := rest.drop word.length
  let trail := rest.takeWhile isBlank
  (lead ++ word ++ trail, rest.drop trail.length)

/-- The words of a text put into lines of a width; `line` is the current one. A word
    that does not fit goes to the next line. -/
def fillLines (cells : Nat) : Nat → List Char → List Char → List (List Char)
  | 0, line, s => [line ++ s]
  | fuel + 1, line, s =>
    let (word, rest) := nextWord s
    if word.all isBlank then [line ++ s]
    else if cells < width line + width (dropBlanksEnd word) && width line != 0 then
      line :: fillLines cells fuel word rest
    else fillLines cells fuel (line ++ word) rest

/-- A line without the blanks at its end that are too many for a width. Blanks are
    counted as characters, whatever cells they take. -/
def cropEnd (cells : Nat) (line : List Char) : List Char :=
  let trail := (line.reverse.takeWhile isBlank).length
  line.take (line.length - min trail (line.length - cells))

/-- A line cut to a width, with a mark at its end if something was cut off. -/
def ellipsis (cells : Nat) (line : List Char) : List Char :=
  if cells < width line then cut (cells - 1) line ++ ['…'] else line

/-- The lines of a cell in a column of a width. -/
def cellLines (cells : Nat) (cell : List Char) : List (List Char) :=
  (splitOn '\n' cell).flatMap fun piece =>
    let lines := fillLines cells (piece.length + 1) [] piece
    lines.map fun line => ellipsis cells (cropEnd cells line)

/-- A line filled up to a width. -/
def alignLine (cells : Nat) : Align → List Char → List Char
  | .left, line => padRight cells line
  | .right, line => padLeft cells line

/-- The lines of a cell as a block of a width and a height. -/
def cellBlock (column : Column) (cells height : Nat) (cell : List Char) : List (List Char) :=
  let lines := (cellLines cells cell).map (alignLine cells column.align)
  lines ++ List.replicate (height - lines.length) (List.replicate cells ' ')

/-! ## Lines -/

/-- A line of the frame. -/
def frameLine (left fill middle right : Char) (widths : List Nat) : List Char :=
  left :: joinWith [middle] (widths.map fun w => List.replicate (w + 2) fill) ++ [right]

/-- A line of cells. -/
def cellsLine (bar : Char) (cells : List (List Char)) : List Char :=
  bar :: joinWith [bar] (cells.map fun c => ' ' :: c ++ [' ']) ++ [bar]

/-- The line with a number of every block. -/
def lineOf (blocks : List (List (List Char))) (n : Nat) : List (List Char) :=
  blocks.map fun block => block.getD n []

/-- The lines of a row. -/
def rowLines (bar : Char) (columns : List Column) (widths : List Nat) (cells : List (List Char)) :
    List (List Char) :=
  let sized := columns.zip (widths.zip cells)
  let height := greatest (sized.map fun (_, w, cell) => (cellLines w cell).length)
  let blocks := sized.map fun (column, w, cell) => cellBlock column w height cell
  (List.range height).map fun n => cellsLine bar (lineOf blocks n)

namespace Table

/-- The table with its title, headings and cells replaced by what a function makes of them. -/
def map (f : List Char → List Char) (t : Table) : Table where
  title := f t.title
  columns := t.columns.map fun column => { column with heading := f column.heading }
  rows := t.rows.map (·.map f)

/-- The cells of a column, the heading first. -/
def columnCells (t : Table) (n : Nat) (column : Column) : List (List Char) :=
  column.heading :: t.rows.map fun row => row.getD n []

/-- The widths of the columns. -/
def widths (t : Table) : List Nat :=
  t.columns.zipIdx.map fun (column, n) => greatest ((t.columnCells n column).map cellWidth)

/-- The width of the whole table, its frame included. -/
def totalWidth (t : Table) : Nat := t.widths.foldl (fun total w => total + (w + 3)) 1

/-- The lines of the table, its title first. -/
def lines (t : Table) : List (List Char) :=
  let widths := t.widths
  (splitOn '\n' t.title).map (padCentre t.totalWidth) ++
    [frameLine '┏' '━' '┳' '┓' widths] ++
    rowLines '┃' t.columns widths (t.columns.map Column.heading) ++
    [frameLine '┡' '━' '╇' '┩' widths] ++
    t.rows.flatMap (rowLines '│' t.columns widths) ++
    [frameLine '└' '─' '┴' '┘' widths]

/-- The table as output. -/
def render (t : Table) : List Char := t.lines.flatMap (· ++ ['\n'])

end Table

end NormalAlgorithm.Report
