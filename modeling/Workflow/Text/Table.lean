import Workflow.Text.Cut
import Workflow.Text.Width

namespace Workflow.Text

/-- A table of texts under a header. Texts may have several lines. -/
structure Table where
  header : List String
  rows : List (List String)

def linesOf (s : String) : List String := (split '\n' s.toList).map String.ofList

namespace Table

/-- The number of columns that a text needs between the bars, with a blank at either side. -/
def room (s : String) : Nat := ((linesOf s).map width).foldl max 0 + 2

/-- The widths of all columns: each has room for its widest text. -/
def widths (t : Table) : List Nat :=
  t.rows.foldl (fun ws row => List.zipWith max ws (row.map room)) (t.header.map room)

/-- A line of a cell, filled up with blanks. -/
def fill (columns : Nat) (line : String) : String :=
  " " ++ line.pushn ' ' (columns - 1 - width line)

/-- The lines of a row. Texts with fewer lines than others are followed by blank ones. -/
def rowLines (ws : List Nat) (row : List String) : List String :=
  let cells := row.map linesOf
  let height := (cells.map List.length).foldl max 0
  (List.range height).map (fun i =>
    "│" ++ "┆".intercalate (List.zipWith (fun w cell => fill w ((cell[i]?).getD "")) ws cells) ++ "│")

def rule (ws : List Nat) (left : String) (bar : Char) (cross right : String) : String :=
  left ++ cross.intercalate (ws.map (fun w => "".pushn bar w)) ++ right

def lines (t : Table) : List String :=
  let ws := t.widths
  rule ws "┌" '─' "┬" "┐" :: rowLines ws t.header ++ rule ws "╞" '═' "╪" "╡"
    :: t.rows.flatMap (rowLines ws) ++ [rule ws "└" '─' "┴" "┘"]

end Table

end Workflow.Text
