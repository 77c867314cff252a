import Phrasebook.Evaluation.Scene
import Phrasebook.Format.Number
import Phrasebook.Format.Roman
import Phrasebook.Format.Span

namespace Phrasebook

namespace Value

mutual

def plainText (culture : Culture) : Value → String
  | float x => String.ofList (Number.plainFloat culture x)
  | moment m => Format.plainMoment culture m
  | list items => plainItems culture items
  | value => value.invariantText

def plainItem (culture : Culture) : Parameter → String
  | ⟨value, _, _⟩ => plainText culture value

def plainItems (culture : Culture) : List Parameter → String
  | [] => ""
  | [item] => plainItem culture item
  | item :: rest => plainItem culture item ++ ", " ++ plainItems culture rest

end

/-- Writes a value by a format string. Texts and truth values ignore it. -/
def formatted (culture : Culture) (format : String) (value : Value) :
    Except FormatError String :=
  match value with
  | null => .ok ""
  | text s => .ok s
  | bool b => .ok (if b then "true" else "false")
  | integer n => Number.write culture format (.integer n)
  | float x => Number.write culture format (.float x)
  | moment m => Format.writeMoment culture format m
  | span d => Format.writeSpan culture format d
  | list _ | record _ => .error (.unsupported value.kind "number, date or duration")

def roman (value : Value) : Except FormatError String :=
  match value.integer? with
  | some n => Roman.write n.toInt
  | none => .error (.unsupported value.kind "roman numeral")

end Value

namespace Formatter

def isDefault : Formatter → Bool
  | default => true
  | host f => f.isDefault
  | _ => false

def kind : Formatter → String
  | roman => "RomanFormatter"
  | letterCase _ => "CaseFormatter"
  | formatString _ => "FormatStringFormatter"
  | default => "DefaultFormatter"
  | host f => f.kind

def applyOwn (f : Formatter) (hosts : Host) (scene : Scene) (p : Parameter) : Except FormatError String :=
  match f with
  | roman => p.value.roman
  | letterCase mode => .ok (mode.apply scene.language.tag.language p.value.invariantText)
  | formatString format => p.value.formatted scene.language.culture format
  | default => .ok (p.value.plainText scene.language.culture)
  | host f => hosts.format f p scene

/-- The format that the built-in default formatter gives way to, which is no default itself. -/
def own? (f : Formatter) (p : Parameter) : Option Formatter :=
  match f with
  | default => p.defaultFormat.filter (!·.isDefault)
  | _ => none

def apply (f : Formatter) (hosts : Host) (scene : Scene) (p : Parameter) : Except FormatError String :=
  ((f.own? p).getD f).applyOwn hosts scene p

end Formatter

end Phrasebook
