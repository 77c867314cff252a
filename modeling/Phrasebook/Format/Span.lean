import Phrasebook.Calendar.Span
import Phrasebook.Format.Moment

namespace Phrasebook

namespace Format

def spanField? (p : Span.Parts) (c : Char) (count : Nat) : Option (List Char) :=
  match c with
  | 'd' => some (digits p.days count)
  | 'h' => some (digits p.hours (min count 2))
  | 'm' => some (digits p.minutes (min count 2))
  | 's' => some (digits p.seconds (min count 2))
  | 'f' => some (subsecond p.nanoseconds (min count 7))
  | 'F' =>
    some ((subsecond p.nanoseconds (min count 7)).reverse.dropWhile (· == '0')).reverse
  | _ => none

def spanRuns? (p : Span.Parts) : List Run → Option (List Char)
  | [] => some []
  | .literal s :: rest => (spanRuns? p rest).map (s ++ ·)
  | .field c count :: rest =>
    (spanField? p c count).bind fun field => (spanRuns? p rest).map (field ++ ·)

def sign (d : Span) : List Char :=
  if d.isNegative then ['-'] else []

def shortSpan (culture : Culture) (d : Span) : List Char :=
  let p := d.parts
  let ticks := ((subsecond p.nanoseconds 7).reverse.dropWhile (· == '0')).reverse
  sign d ++ (if p.days = 0 then [] else digits p.days 1 ++ [':']) ++ digits p.hours 1 ++
    ':' :: digits p.minutes 2 ++ ':' :: digits p.seconds 2 ++
    (if ticks = [] then [] else culture.decimalSeparator.toList ++ ticks)

def longSpan (culture : Culture) (d : Span) : List Char :=
  let p := d.parts
  sign d ++ digits p.days 1 ++ ':' :: digits p.hours 2 ++ ':' :: digits p.minutes 2 ++
    ':' :: digits p.seconds 2 ++ culture.decimalSeparator.toList ++ subsecond p.nanoseconds 7

/-- Custom formats write the magnitude; only the standard ones have a sign. -/
def writeSpan (culture : Culture) (format : String) (d : Span) : Except FormatError String :=
  match format with
  | "c" | "t" | "T" => .ok d.text
  | "g" => .ok (String.ofList (shortSpan culture d))
  | "G" => .ok (String.ofList (longSpan culture d))
  | format =>
    match spanRuns? d.parts (runs format.toList) with
    | some s => .ok (String.ofList s)
    | none => .error (.invalidFormat format)

end Format

end Phrasebook
