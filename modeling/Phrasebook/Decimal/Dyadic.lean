namespace Phrasebook

/-- A magnitude `mantissa * 2 ^ exponent`, as a finite double holds it. -/
structure Dyadic where
  mantissa : Nat
  exponent : Int
deriving DecidableEq, Repr

structure Ratio where
  num : Nat
  den : Nat
deriving DecidableEq, Repr

structure Decimal where
  coefficient : Nat
  exponent : Int
deriving DecidableEq, Repr

namespace Ratio

def scaled (n base : Nat) (exponent : Int) : Ratio :=
  ⟨n * Nat.pow base exponent.toNat, Nat.pow base (-exponent).toNat⟩

def mul (r s : Ratio) : Ratio :=
  ⟨r.num * s.num, r.den * s.den⟩

def lt (r s : Ratio) : Bool :=
  r.num * s.den < s.num * r.den

def le (r s : Ratio) : Bool :=
  r.num * s.den ≤ s.num * r.den

def floor (r : Ratio) : Nat :=
  r.num / r.den

/-- The nearest natural number; a half goes to the even neighbour. -/
def round (r : Ratio) : Nat :=
  let whole := r.num / r.den
  let twice := 2 * (r.num % r.den)
  if r.den < twice ∨ twice = r.den ∧ whole % 2 = 1 then whole + 1 else whole

def digitCount (n : Nat) : Nat :=
  if n = 0 then 0 else (Nat.toDigits 10 n).length

def log10 (r : Ratio) : Int :=
  if r.den ≤ r.num then (digitCount (r.num / r.den) : Int) - 1
  else -(digitCount ((r.den + r.num - 1) / r.num - 1) : Int)

end Ratio

namespace Dyadic

def leadingBit : Nat := 0x10000000000000

def signBit : Nat := 0x8000000000000000

def ofFloat (x : Float) : Dyadic :=
  let bits := x.toBits.toNat % signBit
  let fraction := bits % leadingBit
  let biased := bits / leadingBit
  if biased = 0 then ⟨fraction, -1074⟩ else ⟨fraction + leadingBit, Int.ofNat biased - 1075⟩

def ratio (d : Dyadic) : Ratio :=
  .scaled d.mantissa 2 d.exponent

def nearest (r : Ratio) : Float :=
  if r.num = 0 then 0
  else
    let fits := fun q : Int => (r.mul (.scaled 1 2 (-q))).lt ⟨2 * leadingBit, 1⟩
    let q := (r.num.log2 : Int) - r.den.log2 - 53
    let q := if fits q then q else q + 1
    let q := max q (-1074)
    let mantissa := (r.mul (.scaled 1 2 (-q))).round
    Float.ofBits (min ((q + 1074).toNat * leadingBit + mantissa) (0x7ff * leadingBit)).toUInt64

end Dyadic

/-- Whether the sign bit is set, which also tells `-0` from `0`. -/
def isSigned (x : Float) : Bool :=
  x.toBits.toNat / Dyadic.signBit = 1

def floatOfInt (n : Int) : Float :=
  let magnitude := Dyadic.nearest ⟨n.natAbs, 1⟩
  if n < 0 then -magnitude else magnitude

end Phrasebook
