import Phrasebook.Format.Error

namespace Phrasebook.Roman

def numerals : List (Nat × String) :=
  [(1000, "M"), (900, "CM"), (500, "D"), (400, "CD"), (100, "C"), (90, "XC"), (50, "L"),
   (40, "XL"), (10, "X"), (9, "IX"), (5, "V"), (4, "IV"), (1, "I")]

def spell : List (Nat × String) → Nat → String
  | [], _ => ""
  | (value, numeral) :: rest, n =>
    String.join (List.replicate (n / value) numeral) ++ spell rest (n % value)

/-- Roman numerals from 1 to 3999; zero is `N`. -/
def write (n : Int) : Except FormatError String :=
  if n < 0 ∨ 3999 < n then .error (.outOfRange n 0 3999)
  else if n = 0 then .ok "N"
  else .ok (spell numerals n.toNat)

end Phrasebook.Roman
