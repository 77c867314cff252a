import Phrasebook.Text.Blank
import Phrasebook.Pattern.Reader

namespace Phrasebook

namespace Expression

def mapFirstText (f : List Char → List Char) : Expression → Expression
  | .text s :: rest => .text (String.ofList (f s.toList)) :: rest
  | parts => parts

def mapLastText (f : List Char → List Char) : Expression → Expression
  | [] => []
  | [.text s] => [.text (String.ofList (f s.toList))]
  | part :: rest => part :: mapLastText f rest

def firstChar? : Expression → Option Char
  | .text s :: _ => s.toList.head?
  | _ => none

def lastChar? : Expression → Option Char
  | [] => none
  | [.text s] => s.toList.getLast?
  | _ :: rest => lastChar? rest

def isLoneQuote (e : Expression) : Bool :=
  e.text? == some "\""

/-- Trims the edges, then takes off one pair of quotes that encloses what is left. -/
def unquoted (e : Expression) : Expression :=
  let e := mapLastText Text.trimEnd (mapFirstText Text.trimStart e)
  if firstChar? e = some '"' ∧ lastChar? e = some '"' ∧ ¬ isLoneQuote e then
    mapLastText List.dropLast (mapFirstText List.tail e)
  else e

end Expression

def Reference.trimmed (r : Reference) : Reference :=
  ⟨Text.trimmed r.name, Text.trimmed r.format, r.arguments⟩

mutual

/-- Names and formats are trimmed; the bodies of cases and groups are also unquoted. -/
def Part.normal : Part → Part
  | .text s => .text s
  | .custom node => .custom node
  | .reference r => .reference r.trimmed
  | .switch subject template cases nullCase =>
    .switch subject.trimmed (template.map Text.trimmed) (normalCases cases)
      (normalNullCase nullCase)
  | .group name body => .group (Text.trimmed name) (normalBody body)

def normalParts : List Part → List Part
  | [] => []
  | part :: rest => part.normal :: normalParts rest

def normalBody : Option (List Part) → Option (List Part)
  | none => none
  | some body => some (Expression.unquoted (Reader.orEmptyText (normalParts body)))

def normalNullCase : Option NullCase → Option NullCase
  | none => none
  | some ⟨position, body⟩ =>
    some ⟨position, Expression.unquoted (Reader.orEmptyText (normalParts body))⟩

def normalCases : List Case → List Case
  | [] => []
  | ⟨condition, body⟩ :: rest =>
    ⟨condition, Expression.unquoted (Reader.orEmptyText (normalParts body))⟩ :: normalCases rest

end

namespace Expression

def normal (e : Expression) : Expression :=
  Reader.orEmptyText (normalParts e)

def parse (pattern : String) : Except SyntaxError Expression :=
  (read pattern).map normal

end Expression

end Phrasebook
