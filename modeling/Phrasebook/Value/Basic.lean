import Phrasebook.Calendar.Moment
import Phrasebook.Calendar.Span
import Phrasebook.Decimal.Reading
import Phrasebook.Decimal.Shortest
import Phrasebook.Format.Error
import Phrasebook.Format.Letters
import Phrasebook.Text.Blank
import Phrasebook.Value.Encoder

namespace Phrasebook

/-- A formatter that a host brings along. It is given the parameter that it writes, which may carry
formatters of a host itself; so it is data here, and what it does is told by `Host.format`. -/
structure HostFormatter where
  kind : String
  isDefault : Bool := false
  settings : String := ""
deriving DecidableEq, Repr

inductive Formatter where
  | roman
  | letterCase (mode : LetterCase)
  | formatString (format : String)
  | default
  | host (formatter : HostFormatter)

inductive Wrapping where
  | encoded
  | unencoded
  /-- Puts the encoded text in place of the mark in a template. -/
  | template (text : String)
  /-- A host's way, told by `Host.wrap`. -/
  | custom (name : String)

mutual

inductive Value where
  | null
  | bool (b : Bool)
  | integer (n : Int64)
  | float (x : Float)
  | text (s : String)
  | moment (m : Moment)
  | span (d : Span)
  | list (items : List Parameter)
  | record (fields : List Field)

structure Parameter where
  value : Value
  defaultFormat : Option Formatter
  wrapping : Wrapping

structure Field where
  name : String
  value : Value

end

namespace Value

instance : Inhabited Value := ⟨null⟩

def isNull : Value → Bool
  | null => true
  | _ => false

def kind : Value → String
  | null => "null"
  | bool _ => "bool"
  | integer _ => "number"
  | float _ => "float"
  | text _ => "string"
  | moment _ => "datetime"
  | span _ => "duration"
  | list _ => "list"
  | record _ => "record"

def isWhole (x : Float) : Bool :=
  x.isFinite && x.floor == x

/-- The integer that a number without fraction or a text holds. -/
def integer? : Value → Option Int64
  | integer n => some n
  | float x => if isWhole x then some x.toInt64 else none
  | text s => readInt64? (Text.trim s.toList)
  | _ => none

def number? : Value → Option Float
  | integer n => some n.toFloat
  | float x => some x
  | bool b => some (if b then 1 else 0)
  | text s => readFloat? (Text.trim s.toList)
  | _ => none

def text? : Value → Option String
  | text s => some s
  | _ => none

def span? : Value → Option Span
  | span d => some d
  | _ => none

def list? : Value → Option (List Parameter)
  | list items => some items
  | _ => none

mutual

def invariantText : Value → String
  | null => ""
  | bool b => if b then "true" else "false"
  | integer n => toString n.toInt
  | float x => floatText x
  | text s => s
  | moment m => m.text
  | span d => d.text
  | list items => itemsText items
  | record fields => "\x7b" ++ fieldsText fields ++ "\x7d"

def itemText : Parameter → String
  | ⟨value, _, _⟩ => invariantText value

def itemsText : List Parameter → String
  | [] => ""
  | [item] => itemText item
  | item :: rest => itemText item ++ ", " ++ itemsText rest

def fieldText : Field → String
  | ⟨name, value⟩ => name ++ ": " ++ invariantText value

def fieldsText : List Field → String
  | [] => ""
  | [field] => fieldText field
  | field :: rest => fieldText field ++ ", " ++ fieldsText rest

end

end Value

namespace Wrapping

def isEncoded : Wrapping → Bool
  | encoded => true
  | _ => false

end Wrapping

namespace Parameter

def plain (value : Value) : Parameter := ⟨value, none, .encoded⟩

def unencoded (s : String) : Parameter := ⟨.text s, none, .unencoded⟩

instance : Inhabited Parameter := ⟨plain .null⟩

def isNull (p : Parameter) : Bool := p.value.isNull

def isPlain (p : Parameter) : Bool :=
  p.defaultFormat.isNone && p.wrapping.isEncoded

def withValue (p : Parameter) (value : Value) : Parameter := { p with value }

def withDefaultFormat (p : Parameter) (f : Formatter) : Parameter :=
  { p with defaultFormat := some f }

end Parameter

end Phrasebook
