/-! # Columns

Cells that stand one below the other in neighbouring lines are padded to one width. A column ends
at a line that has no further cell. -/
namespace Scaffold.Code

def padded (width : Nat) (s : String) : String :=
  s ++ String.ofList (List.replicate (width - s.length) ' ')

/-- The widest cell and a blank; a column of empty cells takes no room. -/
def columnWidth (cells : List String) : Nat :=
  match (cells.map String.length).foldl max 0 with
  | 0 => 0
  | widest + 1 => widest + 2

/-- Align the first `columns` columns; the last cell of a line is never padded. -/
def alignColumns : (columns : Nat) → List (List String) → List String
  | 0, rows => rows.map String.join
  | columns + 1, rows =>
    (rows.splitBy fun a b => (a.length > 1) == (b.length > 1)).flatMap fun run =>
      if run.any (·.length > 1) then
        let width := columnWidth (run.map (·.headD ""))
        List.zipWith (fun row rest => padded width (row.headD "") ++ rest) run
          (alignColumns columns (run.map List.tail))
      else run.map String.join

/-- Align all columns. -/
def aligned (rows : List (List String)) : List String :=
  alignColumns ((rows.map List.length).foldl max 0) rows

end Scaffold.Code
