import TreeLint.Text.Columns
import TreeLint.Text.Split

/-! Tables drawn with box characters. Each column is as wide as its widest line, with a blank on
both sides; a line break inside a cell makes its row higher. -/

namespace TreeLint

structure Table where
  header : List String
  rows : List (List String)

namespace Table

abbrev Row := List (List String)

def rowOf (cells : List String) : Row :=
  cells.map fun cell => Text.split cell '\n'

def cellWidth (cell : List String) : Nat :=
  (cell.map Text.columns).foldl max 0

def widen : List Nat → List Nat → List Nat
  | [], widths => widths
  | widths, [] => widths
  | first :: rest, second :: others => max first second :: widen rest others

def columnWidths (rows : List Row) : List Nat :=
  (rows.map fun row => row.map cellWidth).foldl widen []

def blanks (count : Nat) : String :=
  String.ofList (List.replicate count ' ')

def pad (width : Nat) (text : String) : String :=
  " " ++ text ++ blanks (width - Text.columns text) ++ " "

def rowLine (widths : List Nat) (row : Row) (number : Nat) : String :=
  let cells := (widths.zip row).map fun (width, cell) => pad width (cell[number]?.getD "")
  "│" ++ Text.join "┆" cells ++ "│"

def rowLines (widths : List Nat) (row : Row) : List String :=
  let height := (row.map List.length).foldl max 0
  (List.range height).map (rowLine widths row)

/-- A line between rows: its left end, its filling, its crossings and its right end. -/
def rule (left fill cross right : String) (widths : List Nat) : String :=
  left ++
    Text.join cross (widths.map fun width => Text.join "" (List.replicate (width + 2) fill)) ++
    right

def body (widths : List Nat) : List Row → List String
  | [] => []
  | [row] => rowLines widths row
  | row :: next :: rest =>
    rowLines widths row ++ [rule "├" "╌" "┼" "┤" widths] ++ body widths (next :: rest)

def render (table : Table) : String :=
  let header := rowOf table.header
  let rows := table.rows.map rowOf
  let widths := columnWidths (header :: rows)
  Text.join "\n"
    ([rule "┌" "─" "┬" "┐" widths] ++ rowLines widths header ++ [rule "╞" "═" "╪" "╡" widths] ++
      body widths rows ++ [rule "└" "─" "┴" "┘" widths])

end Table

end TreeLint
