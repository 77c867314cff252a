namespace Phrasebook

structure Date where
  year : Int
  month : Nat
  day : Nat
deriving DecidableEq, Repr

namespace Date

def daysBeforeMonth (monthFromMarch : Int) : Int :=
  (153 * monthFromMarch + 2) / 5

def dayNumber (d : Date) : Int :=
  let year := if d.month ≤ 2 then d.year - 1 else d.year
  let monthFromMarch := ((d.month : Int) + 9) % 12
  365 * year + year / 4 - year / 100 + year / 400 + daysBeforeMonth monthFromMarch + d.day - 719469

/-- The date of a day number. Counting from March puts the leap day at the end of a year. -/
def ofDayNumber (n : Int) : Date :=
  let fromMarch := n + 719468
  let era := fromMarch / 146097
  let dayOfEra := fromMarch % 146097
  let yearOfEra := (dayOfEra - dayOfEra / 1460 + dayOfEra / 36524 - dayOfEra / 146096) / 365
  let dayOfYear := dayOfEra - (365 * yearOfEra + yearOfEra / 4 - yearOfEra / 100)
  let monthFromMarch := (5 * dayOfYear + 2) / 153
  let day := dayOfYear - daysBeforeMonth monthFromMarch + 1
  let month := if monthFromMarch < 10 then monthFromMarch + 3 else monthFromMarch - 9
  ⟨yearOfEra + 400 * era + (if month ≤ 2 then 1 else 0), month.toNat, day.toNat⟩

def weekday (d : Date) : Nat :=
  ((d.dayNumber + 4) % 7).toNat

def dayOfYear (d : Date) : Nat :=
  (d.dayNumber - (Date.mk d.year 1 1).dayNumber + 1).toNat

def isLeapYear (year : Int) : Bool :=
  year % 4 = 0 ∧ (year % 100 ≠ 0 ∨ year % 400 = 0)

def daysInMonth (year : Int) : Nat → Nat
  | 2 => if isLeapYear year then 29 else 28
  | 4 | 6 | 9 | 11 => 30
  | _ => 31

def isValid (d : Date) : Bool :=
  1 ≤ d.month && d.month ≤ 12 && 1 ≤ d.day && d.day ≤ daysInMonth d.year d.month

end Date

end Phrasebook
