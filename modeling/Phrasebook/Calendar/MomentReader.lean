import Phrasebook.Calendar.Moment
import Phrasebook.Decimal.Reading
import Phrasebook.Text.Blank

namespace Phrasebook

inductive OffsetError where
  | tooShort
  | invalid
  | outOfRange
deriving DecidableEq, Repr

def OffsetError.message : OffsetError → String
  | tooShort => "premature end of input"
  | invalid => "input contains invalid characters"
  | outOfRange => "input is out of range"

namespace Offset

def twoDigits (s : List Char) : Except OffsetError (Nat × List Char) :=
  match s with
  | [] => .error .tooShort
  | [c] => .error (if c.utf8Size < 2 then .tooShort else .invalid)
  | c :: d :: rest =>
    if isDigit c ∧ isDigit d then .ok (digitsValue [c, d], rest) else .error .invalid

def sign : List Char → Except OffsetError (Bool × List Char)
  | [] => .error .tooShort
  | '+' :: rest => .ok (false, rest)
  | '-' :: rest => .ok (true, rest)
  | '\u2212' :: rest => .ok (true, rest)
  | _ => .error .invalid

def read (between : List Char → Except OffsetError (List Char)) (s : List Char) :
    Except OffsetError (Int × List Char) := do
  let (negative, s) ← sign s
  let (hours, s) ← twoDigits s
  let s ← between s
  let (minutes, s) ← twoDigits s
  if 60 ≤ minutes then throw .outOfRange
  return (withSign negative (3600 * hours + 60 * minutes), s)

def colon : List Char → Except OffsetError (List Char)
  | ':' :: rest => .ok rest
  | [] => .error .tooShort
  | _ => .error .invalid

def colonsOrBlanks (s : List Char) : Except OffsetError (List Char) :=
  .ok (s.dropWhile fun c => c == ':' || Text.isBlank c)

/-- An offset of less than a day; what follows it does not count. -/
def parse (s : String) : Except OffsetError Int := do
  let (seconds, _) ← read colonsOrBlanks s.toList
  if seconds.natAbs < 86400 then return seconds else throw .outOfRange

end Offset

namespace Moment

def digits? (count : Nat) (s : List Char) : Option (Nat × List Char) :=
  (readNat? (s.take count)).bind fun n =>
    if count ≤ s.length then some (n, s.drop count) else none

def mark? (marks : List Char) : List Char → Option (List Char)
  | [] => none
  | c :: rest => if c ∈ marks then some rest else none

/-- Digits after a point, of which nine count. -/
def fraction? : List Char → Option (Nat × List Char)
  | '.' :: rest =>
    let (digits, rest) := rest.span isDigit
    if digits = [] then none
    else some (digitsValue (digits.take 9 ++ List.replicate (9 - digits.length) '0'), rest)
  | s => some (0, s)

def zone? : List Char → Option (Int × List Char)
  | [] => none
  | c :: rest =>
    if c = 'Z' ∨ c = 'z' then some (0, rest)
    else (Offset.read Offset.colon (c :: rest)).toOption

/-- A full date, a full time and an offset. The sixtieth second is a leap second. -/
def read? (text : String) : Option Moment := do
  let (year, s) ← digits? 4 text.toList
  let s ← mark? ['-'] s
  let (month, s) ← digits? 2 s
  let s ← mark? ['-'] s
  let (day, s) ← digits? 2 s
  let s ← mark? ['T', 't', ' '] s
  let (hour, s) ← digits? 2 s
  let s ← mark? [':'] s
  let (minute, s) ← digits? 2 s
  let s ← mark? [':'] s
  let (second, s) ← digits? 2 s
  let (nanosecond, s) ← fraction? s
  let (offset, s) ← zone? s
  let date : Date := ⟨year, month, day⟩
  if s = [] ∧ date.isValid ∧ hour < 24 ∧ minute < 60 ∧ second ≤ 60 ∧ offset.natAbs < 86400 then
    if second = 60 then return ofLocal date hour minute 59 (nanosecond + 1000000000) offset
    else return ofLocal date hour minute second nanosecond offset
  else none

end Moment

namespace Date

def number? (most : Nat) (s : List Char) : Option (Nat × List Char) :=
  let s := Text.trimStart s
  let digits := (s.take most).takeWhile isDigit
  if digits = [] then none else some (digitsValue digits, s.drop digits.length)

/-- Up to four digits, or any number of them after a sign. -/
def year? (s : List Char) : Option (Int × List Char) :=
  match Text.trimStart s with
  | '-' :: rest => (signed? rest).map fun (n, rest) => (-n, rest)
  | '+' :: rest => (signed? rest).map fun (n, rest) => (n, rest)
  | s => (number? 4 s).map fun (n, rest) => (n, rest)
where
  signed? (s : List Char) : Option (Nat × List Char) :=
    let (digits, rest) := s.span isDigit
    if digits = [] then none else some (digitsValue digits, rest)

def isInRange (year : Int) : Bool :=
  -262143 ≤ year ∧ year ≤ 262142

def read? (text : String) : Option Date := do
  let (year, s) ← year? text.toList
  let s ← Moment.mark? ['-'] s
  let (month, s) ← number? 2 s
  let s ← Moment.mark? ['-'] s
  let (day, s) ← number? 2 s
  let date : Date := ⟨year, month, day⟩
  if s = [] ∧ isInRange year ∧ date.isValid then return date else none

end Date

end Phrasebook
