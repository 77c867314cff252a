import Phrasebook.Decimal.Dyadic

namespace Phrasebook

namespace Dyadic

def isBinadeStart (d : Dyadic) : Bool :=
  d.mantissa = leadingBit ∧ -1074 < d.exponent

/-- Whether a decimal is nearer to this double than to its neighbours, a half counting for the
even mantissa. Quarters of the last place keep the bounds whole. -/
def readsBack (d : Dyadic) (c : Decimal) : Bool :=
  let quarter := Ratio.scaled 1 2 (d.exponent - 2)
  let value := Ratio.scaled c.coefficient 10 c.exponent
  let low := quarter.mul ⟨4 * d.mantissa - (if d.isBinadeStart then 1 else 2), 1⟩
  let high := quarter.mul ⟨4 * d.mantissa + 2, 1⟩
  if d.mantissa % 2 = 0 then low.le value && value.le high else low.lt value && value.lt high

def onGrid? (d : Dyadic) (exponent : Int) : Option Decimal :=
  let grid := d.ratio.mul (.scaled 1 10 (-exponent))
  let below : Decimal := ⟨grid.floor, exponent⟩
  let above : Decimal := ⟨grid.floor + 1, exponent⟩
  match d.readsBack below, d.readsBack above with
  | true, false => some below
  | false, true => some above
  | true, true => if 2 * (grid.num % grid.den) < grid.den then some below else some above
  | false, false => none

/-- Tries ever finer grids, of which seventeen digits are always enough. -/
def searchGrids (d : Dyadic) (exponent : Int) : Nat → Decimal
  | 0 => ⟨(d.ratio.mul (.scaled 1 10 (-exponent))).round, exponent⟩
  | more + 1 => (d.onGrid? exponent).getD (searchGrids d (exponent - 1) more)

def shortest (d : Dyadic) : Decimal :=
  d.searchGrids d.ratio.log10 17

end Dyadic

namespace Decimal

def positional (d : Decimal) : List Char × List Char :=
  let digits := Nat.toDigits 10 d.coefficient
  if 0 ≤ d.exponent then (digits ++ List.replicate d.exponent.toNat '0', [])
  else
    let places := (-d.exponent).toNat
    let digits := List.replicate (places + 1 - digits.length) '0' ++ digits
    (digits.take (digits.length - places), digits.drop (digits.length - places))

def dropZeros (s : List Char) : List Char :=
  (s.reverse.dropWhile (· == '0')).reverse

end Decimal

def floatText (x : Float) : String :=
  if x.isNaN then "NaN"
  else
    let sign := if isSigned x then "-" else ""
    if x.isInf then sign ++ "inf"
    else
      let d := Dyadic.ofFloat x
      if d.mantissa = 0 then sign ++ "0"
      else
        let (whole, fraction) := d.shortest.positional
        let fraction := Decimal.dropZeros fraction
        sign ++ String.ofList (if fraction.isEmpty then whole else whole ++ '.' :: fraction)

end Phrasebook
