import Phrasebook.Decimal.Dyadic
import Phrasebook.Text.Pieces

namespace Phrasebook

def isDigit (c : Char) : Bool :=
  '0' ≤ c && c ≤ '9'

def digitsValue (s : List Char) : Nat :=
  s.foldl (fun n c => 10 * n + (c.toNat - '0'.toNat)) 0

def readNat? (s : List Char) : Option Nat :=
  if s ≠ [] ∧ s.all isDigit then some (digitsValue s) else none

def readSign : List Char → Bool × List Char
  | '-' :: s => (true, s)
  | '+' :: s => (false, s)
  | s => (false, s)

def withSign (negative : Bool) (n : Nat) : Int :=
  if negative then -n else n

def readInt? (s : List Char) : Option Int :=
  (readNat? (readSign s).2).map (withSign (readSign s).1)

def readInt64? (s : List Char) : Option Int64 :=
  (readInt? s).bind fun n =>
    if Int64.minValue.toInt ≤ n ∧ n ≤ Int64.maxValue.toInt then some (Int64.ofInt n) else none

/-- The double nearest to a decimal. Far beyond the range of doubles the power is not computed. -/
def Decimal.nearest (d : Decimal) : Float :=
  let magnitude := Ratio.digitCount d.coefficient + d.exponent
  if d.coefficient = 0 ∨ magnitude < -400 then 0
  else if 400 < magnitude then Float.ofBits 0x7ff0000000000000
  else Dyadic.nearest (.scaled d.coefficient 10 d.exponent)

def readExponent? : List Char → Option Int
  | [] => some 0
  | c :: s => if c = 'e' ∨ c = 'E' then readInt? s else none

/-- Digits with an optional point among or around them, and an optional exponent. -/
def readDecimal? (s : List Char) : Option Decimal :=
  let (whole, rest) := s.span isDigit
  let (fraction, rest) := match rest with
    | '.' :: rest => rest.span isDigit
    | rest => ([], rest)
  if whole = [] ∧ fraction = [] then none
  else
    (readExponent? rest).map fun exponent =>
      ⟨digitsValue (whole ++ fraction), exponent - fraction.length⟩

def readFloat? (s : List Char) : Option Float :=
  let (negative, s) := readSign s
  let magnitude :=
    match String.ofList (Text.lowerAscii s) with
    | "inf" | "infinity" => some (Float.ofBits 0x7ff0000000000000)
    | "nan" => some (Float.ofBits 0x7ff8000000000000)
    | _ => (readDecimal? s).map Decimal.nearest
  magnitude.map fun x => if negative then -x else x

end Phrasebook
