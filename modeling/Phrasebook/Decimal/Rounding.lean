import Phrasebook.Decimal.Shortest

namespace Phrasebook

namespace Dyadic

def fixed (d : Dyadic) (places : Nat) : List Char × List Char :=
  Decimal.positional ⟨(d.ratio.mul (.scaled 1 10 places)).round, -places⟩

def scientific (d : Dyadic) (places : Nat) : Decimal :=
  if d.mantissa = 0 then ⟨0, 0⟩
  else
    let magnitude := d.ratio.log10
    let mantissa := (d.ratio.mul (.scaled 1 10 (places - magnitude))).round
    if mantissa = Nat.pow 10 (places + 1) then ⟨Nat.pow 10 places, magnitude + 1⟩
    else ⟨mantissa, magnitude⟩

end Dyadic

def fixedDigits (x : Float) (places : Nat) : List Char × List Char :=
  if x.isNaN then ("NaN".toList, [])
  else if x.isInf then ("inf".toList, [])
  else (Dyadic.ofFloat x).fixed places

def pointed : List Char × List Char → List Char
  | (whole, []) => whole
  | (whole, fraction) => whole ++ '.' :: fraction

/-- A sign where the number has one, never before a word that is no number. -/
def signed (x : Float) (s : List Char) : List Char :=
  if isSigned x ∧ ¬ x.isNaN then '-' :: s else s

def fixedText (x : Float) (places : Nat) : List Char :=
  signed x (pointed (fixedDigits x places))

def scientificText (x : Float) (places : Nat) : List Char × Option Int :=
  if x.isNaN then ("NaN".toList, none)
  else if x.isInf then (signed x "inf".toList, none)
  else
    let d := (Dyadic.ofFloat x).scientific places
    (signed x (pointed (Decimal.positional ⟨d.coefficient, -places⟩)), some d.exponent)

end Phrasebook
