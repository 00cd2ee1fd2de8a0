/-!
# Text tables

A table is a heading line followed by one line per row. Every column except the last is as wide as
its widest cell plus a padding, and at least a least width; cells are filled up with spaces on the
right. The last cell of a line is written as it is, so no line gets trailing spaces. Widths count
characters. A line without a cell for every such column, or without any cell, has no table.
-/

namespace CloudSecrets.Table

/-- Why there is no table: a line lacks a cell. -/
inductive Fault where
  | missingCell
  deriving Repr, DecidableEq

/-- The wording of a fault. -/
def Fault.message : Fault → String
  | .missingCell => "list index out of range"

/-- The least width of a column unless another is asked for. -/
def leastWidth : Int := 20

/-- The padding of a column unless another is asked for. -/
def columnPadding : Int := 3

/-- A cell filled up with spaces to a width; a wider cell is left alone. -/
def pad (width : Int) (cell : String) : String :=
  cell ++ String.ofList (List.replicate (width - cell.length).toNat ' ')

/-- The length of each line's cell in a column, if every line has one. -/
def cellLengths? (column : Nat) (lines : List (List String)) : Option (List Nat) :=
  lines.mapM fun cells => cells[column]?.map String.length

/-- The width of a column: its widest cell plus the padding, and at least the least width. -/
def columnWidth? (least padding : Int) (lines : List (List String)) (column : Nat) : Option Int :=
  (cellLengths? column lines).map fun lengths =>
    max least ((lengths.foldl max 0 : Nat) + padding)

/-- The widths of all columns but the last. -/
def widths? (least padding : Int) (headers : List String) (lines : List (List String)) :
    Option (List Int) :=
  (List.range (headers.length - 1)).mapM (columnWidth? least padding lines)

/-- A line of cells: those with a width filled up to it, then the last cell of the line. -/
def line? (widths : List Int) (cells : List String) : Option String :=
  cells.getLast?.map fun last =>
    String.join (List.zipWith pad widths cells) ++ last

/-- The table of a heading and rows, each line ended by a line feed. -/
def format (headers : List String) (rows : List (List String)) (least padding : Int) :
    Except Fault String :=
  let lines := headers :: rows
  let text? := do
    let widths ← widths? least padding headers lines
    let texts ← lines.mapM (line? widths)
    some (String.join (texts.map (· ++ "\n")))
  match text? with
  | some text => .ok text
  | none => .error .missingCell

end CloudSecrets.Table
