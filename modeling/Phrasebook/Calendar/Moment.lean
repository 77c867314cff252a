import Phrasebook.Calendar.Date
import Phrasebook.Text.Pieces

namespace Phrasebook

/-- A point in time and the offset from UTC at which it is told, in seconds. Nanoseconds from a
thousand million up belong to a leap second. -/
structure Moment where
  instant : Int
  nanosecond : Nat
  offset : Int
deriving DecidableEq, Repr

namespace Moment

def ofLocal (date : Date) (hour minute second nanosecond : Nat) (offset : Int) : Moment :=
  ⟨86400 * date.dayNumber + 3600 * hour + 60 * minute + second - offset, nanosecond, offset⟩

def atOffset (m : Moment) (offset : Int) : Moment :=
  { m with offset }

def clock (m : Moment) : Int :=
  m.instant + m.offset

def date (m : Moment) : Date :=
  .ofDayNumber (m.clock / 86400)

def secondOfDay (m : Moment) : Nat :=
  (m.clock % 86400).toNat

def hour (m : Moment) : Nat :=
  m.secondOfDay / 3600

def minute (m : Moment) : Nat :=
  m.secondOfDay / 60 % 60

def second (m : Moment) : Nat :=
  m.secondOfDay % 60

def hour12 (m : Moment) : Nat :=
  if m.hour % 12 = 0 then 12 else m.hour % 12

def isAfternoon (m : Moment) : Bool :=
  12 ≤ m.hour

/-- Four digits; a sign stands before years that four digits do not hold. -/
def yearText (year : Int) : String :=
  if 0 ≤ year ∧ year ≤ 9999 then Text.padded year.natAbs 4
  else (if year < 0 then "-" else "+") ++ Text.padded year.natAbs 4

def text (m : Moment) : String :=
  let d := m.date
  yearText d.year ++ "-" ++ Text.padded d.month 2 ++ "-" ++ Text.padded d.day 2 ++ " " ++
    Text.padded m.hour 2 ++ ":" ++ Text.padded m.minute 2 ++ ":" ++
    Text.padded (m.second + m.nanosecond / 1000000000) 2

end Moment

end Phrasebook
