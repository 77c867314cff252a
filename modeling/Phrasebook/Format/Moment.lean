import Phrasebook.Calendar.Moment
import Phrasebook.Format.Error
import Phrasebook.Format.Runs
import Phrasebook.Language.Culture

namespace Phrasebook

namespace Format

def monthNames : List String :=
  ["January", "February", "March", "April", "May", "June", "July", "August", "September",
   "October", "November", "December"]

def weekdayNames : List String :=
  ["Sunday", "Monday", "Tuesday", "Wednesday", "Thursday", "Friday", "Saturday"]

def abbreviated (name : String) : List Char := name.toList.take 3

def digits (n width : Nat) : List Char :=
  Text.padLeft '0' width (Text.decimalDigits n)

/-- The first digits of a fraction of a second. A leap second stays at its last instant. -/
def subsecond (nanoseconds count : Nat) : List Char :=
  digits (min nanoseconds 999999999 / Nat.pow 10 (9 - count)) count

def year (count : Nat) (y : Int) : List Char :=
  match count with
  | 1 => digits (y % 100).toNat 1
  | 2 => digits (y % 100).toNat 2
  | count => if y < 0 then '-' :: digits y.natAbs (count - 1) else digits y.natAbs count

def offset (count : Nat) (seconds : Int) : List Char :=
  let minutes := seconds.natAbs / 60
  (if seconds < 0 then '-' else '+') ::
    match count with
    | 1 => digits (minutes / 60) 1
    | 2 => digits (minutes / 60) 2
    | _ => digits (minutes / 60) 2 ++ ':' :: digits (minutes % 60) 2

/-- Writes a field behind what is already written. An empty fraction takes its point away. -/
def writeField (m : Moment) (out : List Char) (c : Char) (count : Nat) : List Char :=
  let name (names : List String) (i : Nat) := (names[i]?).getD ""
  let two := min count 2
  match c with
  | 'd' =>
    if count ≤ 2 then out ++ digits m.date.day count
    else if count = 3 then out ++ abbreviated (name weekdayNames m.date.weekday)
    else out ++ (name weekdayNames m.date.weekday).toList
  | 'M' =>
    if count ≤ 2 then out ++ digits m.date.month count
    else if count = 3 then out ++ abbreviated (name monthNames (m.date.month - 1))
    else out ++ (name monthNames (m.date.month - 1)).toList
  | 'y' => out ++ year count m.date.year
  | 'h' => out ++ digits m.hour12 two
  | 'H' => out ++ digits m.hour two
  | 'm' => out ++ digits m.minute two
  | 's' => out ++ digits m.second two
  | 'f' => out ++ subsecond m.nanosecond (min count 7)
  | 'F' =>
    let fraction :=
      ((subsecond m.nanosecond (min count 7)).reverse.dropWhile (· == '0')).reverse
    if fraction = [] ∧ out.getLast? = some '.' then out.dropLast else out ++ fraction
  | 't' =>
    let half := if m.isAfternoon then ['P', 'M'] else ['A', 'M']
    out ++ half.take count
  | 'z' => out ++ offset count m.offset
  | 'K' => out ++ offset 3 m.offset
  | '%' => out
  | c => out ++ List.replicate count c

def writeRuns (m : Moment) (out : List Char) : List Run → List Char
  | [] => out
  | .literal s :: rest => writeRuns m (out ++ s) rest
  | .field c count :: rest => writeRuns m (writeField m out c count) rest

def customMoment (m : Moment) (format : String) : String :=
  String.ofList (writeRuns m [] (runs format.toList))

def standardMoment? (culture : Culture) : Char → Option String
  | 'd' => some culture.shortDate
  | 'D' => some culture.longDate
  | 't' => some culture.shortTime
  | 'T' => some culture.longTime
  | 'f' => some (culture.longDate ++ " " ++ culture.shortTime)
  | 'F' => some (culture.longDate ++ " " ++ culture.longTime)
  | 'g' => some (culture.shortDate ++ " " ++ culture.shortTime)
  | 'G' => some (culture.shortDate ++ " " ++ culture.longTime)
  | 'M' | 'm' => some "MMMM d"
  | 'Y' | 'y' => some "MMMM yyyy"
  | 's' => some "yyyy-MM-dd'T'HH:mm:ss"
  | 'o' | 'O' => some "yyyy-MM-dd'T'HH:mm:ss.fffffffK"
  | _ => none

def universal (m : Moment) : String :=
  customMoment (m.atOffset 0) "yyyy-MM-dd HH:mm:ss'Z'"

def writeMoment (culture : Culture) (format : String) (m : Moment) :
    Except FormatError String :=
  match format.toList with
  | ['u'] => .ok (universal m)
  | [letter] =>
    match standardMoment? culture letter with
    | some format => .ok (customMoment m format)
    | none => .error (.invalidFormat format)
  | _ => .ok (customMoment m format)

def plainMoment (culture : Culture) (m : Moment) : String :=
  customMoment m (culture.shortDate ++ " " ++ culture.longTime)

end Format

end Phrasebook
