import VirtualShell.Total

/-!
# Tables in a frame

A table with a heading and lines around it. Every cell has a blank on either side, and columns are
as wide as their widest cell.
-/

namespace VirtualShell
namespace Table

/-- The width of each column: that of its widest cell. -/
def widths (rows : List (List String)) : List Nat :=
  rows.foldl (fun widths row =>
    (List.range (max widths.length row.length)).map fun i =>
      max (widths.getD i 0) ((row[i]?.map String.length).getD 0)) []

/-- A cell filled up with blanks. -/
def padded (width : Nat) (cell : String) : String :=
  " " ++ cell ++ String.ofList (List.replicate (width - cell.length) ' ') ++ " "

/-- The cells of a row between the sides of the frame. -/
def row (widths : List Nat) (cells : List String) : String :=
  "│" ++ String.intercalate " " ((widths.zip cells).map fun column => padded column.1 column.2) ++
    "│"

/-- A line across the frame. -/
def rule (widths : List Nat) (left line right : Char) : String :=
  let inner := total (widths.map (· + 2)) + (widths.length - 1)
  String.ofList ([left] ++ List.replicate inner line ++ [right])

/-- The lines of a table. -/
def lines (heading : List String) (rows : List (List String)) : List String :=
  let widths := widths (heading :: rows)
  [rule widths '┌' '─' '┐', row widths heading, rule widths '╞' '═' '╡'] ++
    rows.map (row widths) ++ [rule widths '└' '─' '┘']

end Table
end VirtualShell
