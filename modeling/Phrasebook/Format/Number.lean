import Phrasebook.Decimal.Rounding
import Phrasebook.Format.Error
import Phrasebook.Language.Culture
import Phrasebook.Text.Pieces

namespace Phrasebook

inductive Number where
  | integer (n : Int64)
  | float (x : Float)

namespace Number

def toFloat : Number → Float
  | integer n => n.toFloat
  | float x => x

def kind : Number → String
  | integer _ => "number"
  | float _ => "float"

/-- Sign and digits of a rounded number. Infinities and no number have words for digits. -/
structure Digits where
  negative : Bool
  whole : List Char
  fraction : List Char
deriving DecidableEq, Repr

namespace Digits

def ofInteger (n : Int64) (places : Nat) : Digits :=
  ⟨n.toInt < 0, Text.decimalDigits n.toInt.natAbs, List.replicate places '0'⟩

def ofFloat (x : Float) (places : Nat) : Digits :=
  ⟨x < 0, (fixedDigits x places).1, (fixedDigits x places).2⟩

def of : Number → (places : Nat) → Digits
  | integer n => ofInteger n
  | float x => ofFloat x

def isZero (d : Digits) : Bool :=
  (d.whole ++ d.fraction).all (· == '0')

/-- A rounded zero has no sign. -/
def sign (d : Digits) : List Char :=
  if d.negative && !d.isZero then ['-'] else []

end Digits

def grouped (separator : List Char) : List Char → List Char
  | [] => []
  | c :: rest =>
    if rest.length % 3 = 0 ∧ rest ≠ [] then c :: separator ++ grouped separator rest
    else c :: grouped separator rest

def replacePoint (separator : String) : List Char → List Char
  | [] => []
  | '.' :: rest => separator.toList ++ rest
  | c :: rest => c :: replacePoint separator rest

def joined (culture : Culture) (d : Digits) (whole : List Char) : List Char :=
  d.sign ++ whole ++
    (if d.fraction = [] then [] else culture.decimalSeparator.toList ++ d.fraction)

def fixedPoint (culture : Culture) (d : Digits) : List Char :=
  joined culture d d.whole

def groupedPoint (culture : Culture) (d : Digits) : List Char :=
  joined culture d (grouped culture.groupSeparator.toList d.whole)

def withExponent (letter : Char) (width : Nat) (mantissa : List Char) (exponent : Int) :
    List Char :=
  mantissa ++ letter :: (if exponent < 0 then '-' else '+') ::
    Text.padLeft '0' width (Text.decimalDigits exponent.natAbs)

def scientific (culture : Culture) (letter : Char) (x : Float) (places : Nat) : List Char :=
  let (mantissa, exponent) := scientificText x places
  withExponent letter 3 (replacePoint culture.decimalSeparator mantissa) (exponent.getD 0)

def shortened (s : List Char) : List Char :=
  if '.' ∈ s then
    (((s.reverse.dropWhile (· == '0'))).dropWhile (· == '.')).reverse
  else s

/-- Positional or scientific notation with some digits, whichever suits the exponent. -/
def general (culture : Culture) (letter : Char) (x : Float) (digits : Nat) : List Char :=
  let (mantissa, exponent) := scientificText x (digits - 1)
  let exponent := exponent.getD 0
  if -5 ≤ exponent ∧ exponent < digits then
    let places := ((digits : Int) - 1 - exponent).toNat
    replacePoint culture.decimalSeparator (shortened (fixedText x places))
  else
    withExponent letter 2 (replacePoint culture.decimalSeparator (shortened mantissa)) exponent

def hexadecimal (upper : Bool) (n : Int64) : List Char :=
  let digits := Nat.toDigits 16 n.toUInt64.toNat
  if upper then digits.map Char.toUpper else digits

def plainFloat (culture : Culture) (x : Float) : List Char :=
  replacePoint culture.decimalSeparator (floatText x).toList

def standard? : List Char → Option (Char × Option Nat)
  | [] => none
  | letter :: digits =>
    if letter.isAlpha ∧ digits.length ≤ 2 ∧ digits.all isDigitChar then
      some (letter, if digits = [] then none else some (value digits))
    else none
where
  isDigitChar (c : Char) : Bool := '0' ≤ c && c ≤ '9'
  value (s : List Char) : Nat := s.foldl (fun n c => 10 * n + (c.toNat - '0'.toNat)) 0

def integerOnly (n : Number) (write : Int64 → List Char) : Except FormatError (List Char) :=
  match n with
  | integer n => .ok (write n)
  | float _ => .error (.unsupported n.kind "integer")

def decimalInteger (width : Nat) (n : Int64) : List Char :=
  (if n.toInt < 0 then ['-'] else []) ++
    Text.padLeft '0' width (Text.decimalDigits n.toInt.natAbs)

def writeStandard (culture : Culture) (format : String) (letter : Char) (precision : Option Nat)
    (n : Number) : Except FormatError (List Char) :=
  match letter.toUpper with
  | 'N' => .ok (groupedPoint culture (.of n (precision.getD 2)))
  | 'F' => .ok (fixedPoint culture (.of n (precision.getD 2)))
  | 'P' =>
    .ok (groupedPoint culture (.ofFloat (n.toFloat * 100) (precision.getD 2)) ++
      culture.percentSpacing.toList ++ ['%'])
  | 'D' => integerOnly n (decimalInteger (precision.getD 0))
  | 'X' =>
    integerOnly n fun n =>
      Text.padLeft '0' (precision.getD 0) (hexadecimal (letter == 'X') n)
  | 'E' => .ok (scientific culture letter n.toFloat (precision.getD 6))
  | 'G' | 'R' =>
    match n, precision with
    | integer n, none => .ok (toString n.toInt).toList
    | n, none | n, some 0 => .ok (plainFloat culture n.toFloat)
    | n, some digits =>
      .ok (general culture (if letter == 'g' then 'e' else 'E') n.toFloat digits)
  | _ => .error (.invalidFormat format)

inductive Token where
  | zero
  | hash
  | point
  | comma
  | percent
  | literal (s : List Char)
deriving DecidableEq, Repr

namespace Token

def isPlaceholder : Token → Bool
  | zero | hash => true
  | _ => false

end Token

def isQuote (c : Char) : Bool := c == '\'' || c == '"'

def untilQuote (quote : Char) (s : List Char) : List Char × List Char :=
  (s.takeWhile (· != quote), (s.dropWhile (· != quote)).tail)

theorem untilQuote_length_le (quote : Char) (s : List Char) :
    (untilQuote quote s).2.length ≤ s.length := by
  have := (List.dropWhile_suffix (· != quote) (l := s)).length_le
  simp [untilQuote]
  omega

def tokens : List Char → List Token
  | [] => []
  | ['\\'] => [.literal []]
  | '\\' :: c :: s => .literal [c] :: tokens s
  | '0' :: s => .zero :: tokens s
  | '#' :: s => .hash :: tokens s
  | '.' :: s => .point :: tokens s
  | ',' :: s => .comma :: tokens s
  | '%' :: s => .percent :: tokens s
  | c :: s =>
    if isQuote c then
      have := untilQuote_length_le c s
      .literal (untilQuote c s).1 :: tokens (untilQuote c s).2
    else .literal [c] :: tokens s
termination_by s => s.length

def onto (c : Char) : List (List Char) → List (List Char)
  | [] => [[c]]
  | piece :: rest => (c :: piece) :: rest

def sectionsFrom : (quote : Option Char) → List Char → List (List Char)
  | _, [] => [[]]
  | some quote, c :: s => onto c (sectionsFrom (if c = quote then none else some quote) s)
  | none, ['\\'] => [['\\']]
  | none, '\\' :: c :: s => onto '\\' (onto c (sectionsFrom none s))
  | none, c :: s =>
    if c = ';' then [] :: sectionsFrom none s
    else onto c (sectionsFrom (if isQuote c then some c else none) s)

def sections (format : List Char) : List (List Char) :=
  sectionsFrom none format

/-- The section for a number, and whether that section says the sign itself. -/
def sectionFor (x : Float) : List (List Char) → List Char × Bool
  | first :: negative :: rest =>
    if x < 0 then (negative, true)
    else
      match rest with
      | zero :: _ => if x == 0 then (zero, true) else (first, false)
      | [] => (first, false)
  | [first] => (first, false)
  | [] => ([], false)

/-- Shares digits out to placeholders from the right; the first one takes what is left over. -/
def slots (placeholders : Nat) (digits : List Char) : List (List Char) :=
  if placeholders = 0 then []
  else if placeholders ≤ digits.length then
    let first := digits.length - placeholders + 1
    digits.take first :: (digits.drop first).map ([·])
  else List.replicate (placeholders - digits.length) [] ++ digits.map ([·])

def fill (point : List Char) : List Token → List (List Char) → List Char
  | [], _ => []
  | .literal s :: rest, slots => s ++ fill point rest slots
  | .percent :: rest, slots => '%' :: fill point rest slots
  | .comma :: rest, slots => fill point rest slots
  | .point :: rest, slots => point ++ fill point rest slots
  | .zero :: rest, slots | .hash :: rest, slots => slots.headD [] ++ fill point rest slots.tail

/-- Placeholders from the first zero on, all of which are filled. -/
def leastWhole (placeholders : List Token) : Nat :=
  (placeholders.dropWhile (· != .zero)).length

def leastFraction (placeholders : List Token) : Nat :=
  leastWhole placeholders.reverse

def isGrouped (whole : List Token) : Bool :=
  (whole.dropWhile fun t => !t.isPlaceholder).contains .comma

def cutZeros (least : Nat) (digits : List Char) : List Char :=
  digits.take least ++ ((digits.drop least).reverse.dropWhile (· == '0')).reverse

def writeTokens (culture : Culture) (signed : Bool) (x : Float) (tokens : List Token) :
    List Char :=
  let whole := tokens.takeWhile (· != .point)
  let fraction := tokens.dropWhile (· != .point)
  let wholePlaceholders := whole.filter Token.isPlaceholder
  let fractionPlaceholders := fraction.filter Token.isPlaceholder
  let scale : Float := if tokens.contains .percent then 100 else 1
  let digits := Digits.ofFloat (x * scale) fractionPlaceholders.length
  let wholeDigits :=
    Text.padLeft '0' (leastWhole wholePlaceholders) (digits.whole.dropWhile (· == '0'))
  let fractionDigits := cutZeros (leastFraction fractionPlaceholders) digits.fraction
  let wholeSlots :=
    if isGrouped whole then [grouped culture.groupSeparator.toList wholeDigits]
    else slots wholePlaceholders.length wholeDigits
  let point := if fractionDigits = [] then [] else culture.decimalSeparator.toList
  (if signed then digits.sign else []) ++ fill point whole wholeSlots ++
    fill point fraction (fractionDigits.map ([·]))

def writeCustom (culture : Culture) (format : List Char) (n : Number) : List Char :=
  let x := n.toFloat
  let (chosen, saysSign) := sectionFor x (sections format)
  writeTokens culture (!saysSign) x (tokens chosen)

def write (culture : Culture) (format : String) (n : Number) : Except FormatError String :=
  match standard? format.toList with
  | some (letter, precision) => (writeStandard culture format letter precision n).map String.ofList
  | none => .ok (String.ofList (writeCustom culture format.toList n))

end Number

end Phrasebook
