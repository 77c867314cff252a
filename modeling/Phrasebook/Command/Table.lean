import Phrasebook.Text.Pieces
import Phrasebook.Text.Width

namespace Phrasebook

namespace Table

def cellLines (s : String) : List String :=
  (Text.splitOn '\n' s.toList).map String.ofList

def cellWidth (s : String) : Nat :=
  ((cellLines s).map Text.width).foldl max 0

def columnWidths : List (List String) → List Nat
  | [] => []
  | [row] => row.map cellWidth
  | row :: rest => List.zipWith max (row.map cellWidth) (columnWidths rest)

def repeated (c : Char) (n : Nat) : String :=
  String.ofList (List.replicate n c)

def paddedCell (width : Nat) (s : String) : String :=
  " " ++ s ++ repeated ' ' (width - Text.width s) ++ " "

def rowLine (widths : List Nat) (row : List String) (number : Nat) : String :=
  "│" ++
    Text.joined " "
      (List.zipWith (fun width cell => paddedCell width ((cellLines cell).getD number "")) widths
        row) ++ "│"

def rowLines (widths : List Nat) (row : List String) : List String :=
  let height := (row.map fun cell => (cellLines cell).length).foldl max 1
  (List.range height).map (rowLine widths row)

def border (widths : List Nat) (left middle right : Char) : String :=
  let inner := (widths.map (· + 2)).foldl (· + ·) 0 + (widths.length - 1)
  repeated left 1 ++ repeated middle inner ++ repeated right 1

def text (header : List String) (rows : List (List String)) : String :=
  let widths := columnWidths (header :: rows)
  Text.joined "\n"
    (border widths '┌' '─' '┐' :: rowLines widths header ++
      border widths '╞' '═' '╡' :: rows.flatMap (rowLines widths) ++
      [border widths '└' '─' '┘'])

end Table

end Phrasebook
