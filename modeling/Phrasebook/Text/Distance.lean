import Phrasebook.Text.Casing

namespace Phrasebook.Text

/-- One row of the edit table: `left` and `diagonal` are the entries before the ones to come. -/
def nextRow (c : Char) (left diagonal : Nat) : (above : List Nat) → List Char → List Nat
  | up :: above, d :: target =>
    let entry := min (min (left + 1) (up + 1)) (if c = d then diagonal else diagonal + 1)
    entry :: nextRow c entry up above target
  | _, _ => []

def rows (target : List Char) : (row : List Nat) → List Char → List Nat
  | row, [] => row
  | row, c :: rest =>
    let first := row.headD 0
    rows target ((first + 1) :: nextRow c (first + 1) first row.tail target) rest

def distance (source target : List Char) : Nat :=
  (rows target (List.range (target.length + 1)) source).getLastD 0

/-- How far a key may be from what was asked for: a third of its length, but at least one. -/
def tolerance (wanted : String) : Nat :=
  max 1 (wanted.toList.length / 3)

def lowerDistance (s t : String) : Nat :=
  distance (lowered s).toList (lowered t).toList

def closer (wanted s t : String) : Bool :=
  let ds := lowerDistance wanted s
  let dt := lowerDistance wanted t
  ds < dt || (ds == dt && s ≤ t)

def suggestions (wanted : String) (known : List String) : List String :=
  (known.filter fun key => lowerDistance wanted key ≤ tolerance wanted).mergeSort (closer wanted)

end Phrasebook.Text
