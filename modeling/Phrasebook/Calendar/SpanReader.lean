import Phrasebook.Calendar.Span
import Phrasebook.Decimal.Reading
import Phrasebook.Text.Blank

namespace Phrasebook

namespace SpanReader

def count? (s : List Char) : Option Nat :=
  (readNat? s).filter (· < 0x8000000000000000)

def component? (designator : Char) (s : List Char) : Option (Nat × List Char) :=
  match (s.span isDigit).2 with
  | c :: rest =>
    if c = designator then (count? (s.span isDigit).1).map fun n => (n, rest) else none
  | [] => none

/-- The most days that milliseconds of sixty-four bits hold. -/
def maxDays : Nat := 106751991167

def maxNanoseconds : Nat := 9223372036854775807000000

/-- Why reading ends without a span. Where a length is out of range the program itself stops, whatever else
stands in the text. -/
inductive Fault where
  | refused
  | overflow
deriving DecidableEq, Repr

def inRange (length : Option Nat) : Except Fault (Option Nat) :=
  if length.getD 0 ≤ maxNanoseconds then .ok length else .error .overflow

def orElseSum : Option Nat → Option Nat → Option Nat
  | some m, some n => some (m + n)
  | some m, none => some m
  | none, n => n

/-- Years, months, weeks and days, each at most once and in this order. -/
def dateUnits : List (Char × Nat) :=
  [('Y', 365), ('M', 30), ('W', 7), ('D', 1)]

/-- Adds the units that are there to what was read before them. Too many days of one unit refuse the whole
text; a sum of several has to be in range. -/
def date : List (Char × Nat) → (before : Option Nat) → List Char → Except Fault (Option Nat × List Char)
  | [], before, s => .ok (before, s)
  | (designator, size) :: units, before, s =>
    match component? designator s with
    | none => date units before s
    | some (n, rest) =>
      if maxDays < n * size then .error .refused
      else do
        let sum ← inRange (orElseSum before (some (n * size * 86400000000000)))
        date units sum rest

/-- Nanoseconds of a decimal fraction; digits after the ninth are dropped. -/
def fractionNanoseconds (digits : List Char) : Nat :=
  digitsValue ((digits ++ List.replicate 9 '0').take 9)

def fraction : List Char → Nat × List Char
  | [] => (0, [])
  | c :: s =>
    if (c = '.' ∨ c = ',') ∧ (s.span isDigit).1 ≠ [] then
      (fractionNanoseconds (s.span isDigit).1, (s.span isDigit).2)
    else (0, c :: s)

def units? (designator : Char) (size : Nat) (s : List Char) : Option (Nat × List Char) :=
  (component? designator s).map fun (n, rest) => (n * size, rest)

def seconds? (s : List Char) : Option (Nat × List Char) :=
  (count? (s.span isDigit).1).bind fun n =>
    match fraction (s.span isDigit).2 with
    | (nanoseconds, 'S' :: rest) => some (n * 1000000000 + nanoseconds, rest)
    | _ => none

def optionally (read : List Char → Option (Nat × List Char)) (s : List Char) :
    Except Fault (Option Nat × List Char) :=
  match read s with
  | some (n, rest) => (inRange (some n)).map fun n => (n, rest)
  | none => .ok (none, s)

def time (s : List Char) : Except Fault (Option Nat × List Char) := do
  let (hours, s) ← optionally (units? 'H' 3600000000000) s
  let (minutes, s) ← optionally (units? 'M' 60000000000) s
  let (seconds, s) ← optionally seconds? s
  let sum ← inRange (orElseSum hours minutes)
  let sum ← inRange (orElseSum sum seconds)
  return (sum, s)

def optionalTime (s : List Char) : Except Fault (Option Nat × List Char) :=
  match s with
  | 'T' :: s => time s
  | s => .ok (none, s)

def unsigned (s : List Char) : Except Fault Nat :=
  match s with
  | 'P' :: s => do
    let (date, s) ← date dateUnits none s
    let (time, s) ← optionalTime s
    match ← inRange (orElseSum date time), s with
    | some n, [] => return n
    | _, _ => throw .refused
  | _ => .error .refused

end SpanReader

structure Overflow
deriving DecidableEq, Repr

def SpanReader.behindSign (negative : Bool) (s : List Char) : Except Overflow (Option Span) :=
  match unsigned s with
  | .ok n => .ok (some ⟨withSign negative n⟩)
  | .error .refused => .ok none
  | .error .overflow => .error ⟨⟩

/-- Reads an ISO 8601 duration. A year counts as 365 days and a month as 30. -/
def Span.read (text : String) : Except Overflow (Option Span) :=
  match Text.trim text.toList with
  | '-' :: s => SpanReader.behindSign true s
  | s => SpanReader.behindSign false s

end Phrasebook
