/-!
# PackPlan.Text.Grid

Cells in rows and columns as lines of text. The frame has rounded corners, a rule stands under the
first row and nowhere else, and each cell is set to the right of its column with one blank on either
side. A column is as wide as its widest cell, so all lines are equally long.
-/

namespace PackPlan
namespace Text

/-- The width of each column: that of its widest cell. -/
def columnWidths (header : List (List Char)) (rows : List (List (List Char))) : List Nat :=
  rows.foldl (fun widths row => List.zipWith max widths (row.map List.length))
    (header.map List.length)

/-- The stretches of a line with the mark between each two of them. -/
def between (mark : Char) (stretches : List (List Char)) : List Char :=
  List.intercalate [mark] stretches

/-- A line of dashes with the given corners and crossings. -/
def ruleLine (first crossing last : Char) (widths : List Nat) : List Char :=
  first :: between crossing (widths.map fun width => List.replicate (width + 2) '─') ++ [last]

/-- A cell set to the right, with a blank on either side. -/
def padCell (width : Nat) (cell : List Char) : List Char :=
  ' ' :: cell.leftpad width ' ' ++ [' ']

def rowLine (widths : List Nat) (cells : List (List Char)) : List Char :=
  '│' :: between '│' (List.zipWith padCell widths cells) ++ ['│']

def gridLines (header : List (List Char)) (rows : List (List (List Char))) : List (List Char) :=
  let widths := columnWidths header rows
  [ruleLine '╭' '┬' '╮' widths, rowLine widths header, ruleLine '├' '┼' '┤' widths]
    ++ rows.map (rowLine widths) ++ [ruleLine '╰' '┴' '╯' widths]

end Text
end PackPlan
