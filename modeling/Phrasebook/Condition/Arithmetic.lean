import Phrasebook.Decimal.Reading
import Phrasebook.Text.Blank

namespace Phrasebook

inductive Operation where
  | add
  | subtract
  | multiply
  | divide
  | floorDivide
  | modulo
deriving DecidableEq, Repr

inductive Comparison where
  | equal
  | notEqual
  | less
  | lessOrEqual
  | greater
  | greaterOrEqual
deriving DecidableEq, Repr

namespace Operation

def symbol : Operation → Char
  | add => '+'
  | subtract => '-'
  | multiply => '*'
  | divide => '/'
  | floorDivide => '\\'
  | modulo => '%'

def ofSymbol? : Char → Option Operation
  | '+' => some add
  | '-' => some subtract
  | '*' => some multiply
  | '/' => some divide
  | '\\' => some floorDivide
  | '%' => some modulo
  | _ => none

/-- The remainder of two integers cut to sixty-four bits, where it is defined. -/
def remainder? (x y : Float) : Option Float :=
  let m := x.toInt64.toInt
  let n := y.toInt64.toInt
  if n = 0 ∨ (m = Int64.minValue.toInt ∧ n = -1) then none else some (floatOfInt (m.tmod n))

def result? : Operation → Float → Float → Option Float
  | add, x, y => some (x + y)
  | subtract, x, y => some (x - y)
  | multiply, x, y => some (x * y)
  | divide, x, y => some (x / y)
  | floorDivide, x, y => some (x / y).floor
  | modulo, x, y => remainder? x y

end Operation

namespace Comparison

def symbol : Comparison → String
  | equal => "="
  | notEqual => "!="
  | less => "<"
  | lessOrEqual => "<="
  | greater => ">"
  | greaterOrEqual => ">="

def read? : List Char → Option (Comparison × List Char)
  | '!' :: '=' :: s => some (notEqual, s)
  | '<' :: '>' :: s => some (notEqual, s)
  | '<' :: '=' :: s => some (lessOrEqual, s)
  | '>' :: '=' :: s => some (greaterOrEqual, s)
  | '=' :: s => some (equal, s)
  | '<' :: s => some (less, s)
  | '>' :: s => some (greater, s)
  | _ => none

/-- What is no number differs from everything. -/
def holds (c : Comparison) (x y : Float) : Bool :=
  match c with
  | equal => x == y
  | notEqual => x != y
  | less => x < y
  | lessOrEqual => x ≤ y
  | greater => y < x
  | greaterOrEqual => y ≤ x

end Comparison

structure Arithmetic where
  operations : List (Operation × Float)
  comparison : Comparison
  target : Float

namespace Arithmetic

def outcome? : List (Operation × Float) → Float → Option Float
  | [], x => some x
  | (op, y) :: rest, x => (op.result? x y).bind (outcome? rest)

def test? (a : Arithmetic) (x : Float) : Option Bool :=
  (outcome? a.operations x).map fun y => a.comparison.holds y a.target

def unsigned? (s : List Char) : Option (Float × List Char) :=
  match s.span isDigit with
  | ([], _) => none
  | (whole, rest) =>
    let (fraction, rest) := match rest with
      | '.' :: t => if t.head?.any isDigit then t.span isDigit else ([], rest)
      | _ => ([], rest)
    some (Decimal.nearest ⟨digitsValue (whole ++ fraction), -fraction.length⟩, rest)

def signed? : List Char → Option (Float × List Char)
  | '-' :: s => (unsigned? s).map fun (x, rest) => (-x, rest)
  | s => unsigned? s

def step? : List Char → Option ((Operation × Float) × List Char)
  | [] => none
  | c :: s =>
    (Operation.ofSymbol? c).bind fun op =>
      (unsigned? (Text.trimStart s)).map fun (x, rest) => ((op, x), rest)

/-- Steps one after another; the number bounds how many are tried. -/
def steps : Nat → List Char → List (Operation × Float) × List Char
  | 0, s => ([], s)
  | more + 1, s =>
    match step? (Text.trimStart s) with
    | some (step, rest) => ((step :: (steps more rest).1), (steps more rest).2)
    | none => ([], s)

def parse? (s : List Char) : Option Arithmetic :=
  match steps s.length s with
  | ([], _) => none
  | (operations, rest) =>
    (Comparison.read? (Text.trimStart rest)).bind fun (comparison, rest) =>
      (signed? (Text.trimStart rest)).bind fun (target, rest) =>
        if Text.trimStart rest = [] then some ⟨operations, comparison, target⟩ else none

end Arithmetic

end Phrasebook
