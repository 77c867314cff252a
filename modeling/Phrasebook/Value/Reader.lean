import Phrasebook.Calendar.MomentReader
import Phrasebook.Calendar.SpanReader
import Phrasebook.Value.Basic

namespace Phrasebook

namespace Value

def word? (s : List Char) : Option Value :=
  match String.ofList s with
  | "null" => some null
  | "true" => some (bool true)
  | "false" => some (bool false)
  | _ => none

/-- A float has a digit, so that the words for infinity stay texts. -/
def readFloatLiteral? (s : List Char) : Option Value :=
  if s.any isDigit then (readFloat? s).map float else none

def readMidnight? (zone : Int) (s : String) : Option Value :=
  (Date.read? s).map fun date => moment (.ofLocal date 0 0 0 0 zone)

def readScalar (zone : Int) (s : List Char) : Except Overflow Value :=
  let string := String.ofList s
  let found :=
    ((Text.enclosed? '"' '"' s).map fun inner => text (String.ofList inner)) <|>
    word? s <|>
    (readInt64? s).map integer <|>
    readFloatLiteral? s <|>
    (Moment.read? string).map moment <|>
    readMidnight? zone string
  match found with
  | some value => .ok value
  | none => (Span.read string).map fun d => (d.map span).getD (text string)

def read (zone : Int) (s : List Char) : Except Overflow Value :=
  match h : Text.enclosed? '[' ']' s with
  | none => readScalar zone s
  | some inner =>
    if Text.trim inner = [] then .ok (list [])
    else do
      let items ← (Text.splitOn ',' inner).attach.mapM fun ⟨item, hi⟩ =>
        have := Text.enclosed?_length_lt h
        have := Text.length_le_of_mem_splitOn hi
        have := Text.trim_length_le item
        read zone (Text.trim item)
      return list (items.map Parameter.plain)
termination_by s.length

end Value

end Phrasebook
