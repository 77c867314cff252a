import Phrasebook.Script.Condition

namespace Phrasebook

namespace Script

open Code

def expanderCode (r : Registry) (x : Expander) (wrapper content : Code) : Code :=
  dispatch r (.expander x) 0 [wrapper, content] fun _ =>
    match x with
    | .hashMark =>
      wrapper ++ word ".split" ++ parens (literal "\x7b#\x7d") ++ word ".join" ++ parens content
    | .host _ _ => word "undefined"

/-- A condition is tested on the value, or on both indices of an element. -/
def testBoth (r : Registry) (s : Scope) (c : Condition) : Code :=
  parens (caseTest r s c (word "v1") ++ word "||v2!==undefined&&" ++ caseTest r s c (word "v2"))

def together : List Code → Code
  | [] => literal ""
  | [code] => code
  | codes => concatenation codes

mutual

def partCode (r : Registry) (s : Scope) : BoundPart → Code
  | .text content => call "e" [literal content]
  | .parameter _ e format =>
    immediate
      (word "var v=" ++ evaluatorCode r e ++ word ";return " ++
        call "af" [word "v", formatterCode r format (word "v"), word "true"] ++ word ";")
  | .switch _ e format _ cases nullCase =>
    let nullFunction := match nullCase with
      | some body => returning "" (together (partCodes r s body))
      | none => word "null"
    let format := match format with
      | some format => returning "v" (formatterCode r format (word "v"))
      | none => word "null"
    call "sw"
      [word "c", evaluatorCode r e, nullFunction, format, returning "v1,v2" (casesCode r s cases)]
  | .group _ e expander content =>
    let inner := match content with
      | some body => together (partCodes r s body)
      | none => literal ""
    immediate
      (word "var p=" ++ rawValue (evaluatorCode r e) ++ word ";p=p==null?" ++ literal "" ++
        word ":" ++ literal "" ++ word "+p;var i=" ++ inner ++ word ";return p===" ++ literal "" ++
        word "?i:" ++ expanderCode r expander (word "p") (word "i") ++ word ";")
  | .custom node part => dispatch r (.customPart node part) 0 [] fun _ => word "undefined"

def partCodes (r : Registry) (s : Scope) : List BoundPart → List Code
  | [] => []
  | p :: rest => partCode r s p :: partCodes r s rest

def casesCode (r : Registry) (s : Scope) : List BoundCase → Code
  | [] => literal ""
  | ⟨_, _, c, body⟩ :: rest =>
    testBoth r s c ++ word "?" ++ together (partCodes r s body) ++ word ":" ++ casesCode r s rest

end

def partsCode (r : Registry) (s : Scope) (parts : List BoundPart) : Code :=
  together (partCodes r s parts)

@[simp] theorem together_partCodes (r : Registry) (s : Scope) (parts : List BoundPart) :
    together (partCodes r s parts) = partsCode r s parts := rfl

end Script

end Phrasebook
