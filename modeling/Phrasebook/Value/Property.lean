import Phrasebook.Value.Basic

namespace Phrasebook

namespace Property

def total (d : Span) (milliseconds : Float) : Value :=
  .float (floatOfInt d.milliseconds / milliseconds)

def count (n : Int) : Value :=
  .integer (Int64.ofInt n)

def ofSpan? (d : Span) : (name : String) → Option Value
  | "days" => some (count d.days)
  | "hours" => some (count (d.hours.tmod 24))
  | "minutes" => some (count (d.minutes.tmod 60))
  | "seconds" => some (count (d.seconds.tmod 60))
  | "milliseconds" => some (count (d.milliseconds.tmod 1000))
  | "totaldays" => some (total d 86400000)
  | "totalhours" => some (total d 3600000)
  | "totalminutes" => some (total d 60000)
  | "totalseconds" => some (total d 1000)
  | "totalmilliseconds" => some (total d 1)
  | _ => none

def ofMoment? (m : Moment) : (name : String) → Option Value
  | "year" => some (count m.date.year)
  | "month" => some (count m.date.month)
  | "day" => some (count m.date.day)
  | "hour" => some (count m.hour)
  | "minute" => some (count m.minute)
  | "second" => some (count m.second)
  | "dayofweek" => some (count m.date.weekday)
  | "dayofyear" => some (count m.date.dayOfYear)
  | _ => none

def isLength (name : String) : Bool :=
  name == "length" || name == "count"

end Property

/-- A named part of a value. Letter case does not count. -/
def Value.property? (value : Value) (name : String) : Option Value :=
  let key := String.ofList (Text.lowerAscii name.toList)
  match value with
  | .record fields =>
    (fields.find? fun field => Text.equalIgnoringCase field.name.toList name.toList).map (·.value)
  | .span d => Property.ofSpan? d key
  | .moment m => Property.ofMoment? m key
  | .text s => if Property.isLength key then some (Property.count s.toList.length) else none
  | .list items => if Property.isLength key then some (Property.count items.length) else none
  | _ => none

end Phrasebook
