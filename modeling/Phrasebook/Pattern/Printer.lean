import Phrasebook.Text.Blank
import Phrasebook.Pattern.NormalForm

namespace Phrasebook

namespace Printer

def textMarks : List Char := ['{', '}', '|', '#', '<', '>', '\\']
def openCaseMarks : List Char := ['{', '}', '|', '#', '<', '>', ':', '\\']
def conditionMarks : List Char := ['{', '}', '|', ':', '\\']
def nameMarks : List Char := ['{', '}', '|', ':', '<', '>', '(', '\\']
def argumentMarks : List Char := [')', '\\']
def formatMarks : List Char := ['{', '}', '\\']
def templateMarks : List Char := ['{', '}', '(', ')', ':', '\\']

def escaped (marks : List Char) (s : String) : List Char :=
  s.toList.flatMap fun c => if c ∈ marks then ['\\', c] else [c]

/-- Where a part stands. In a case without a condition a colon would start one. -/
inductive Place where
  | plain
  | openCase
deriving DecidableEq

def Place.marks : Place → List Char
  | .plain => textMarks
  | .openCase => openCaseMarks

/-- A question mark that opens a case without a condition would make it the null case. -/
def text (place : Place) (first : Bool) (s : String) : List Char :=
  if first ∧ place = .openCase ∧ s.toList.head? = some '?' then
    '\\' :: escaped place.marks s
  else escaped place.marks s

def format (marks : List Char) (s : String) : List Char :=
  if s.isEmpty then [] else ':' :: escaped marks s

def arguments : Option String → List Char
  | none => []
  | some s => '(' :: escaped argumentMarks s ++ [')']

def reference (r : Reference) : List Char :=
  '{' :: escaped nameMarks r.name ++ arguments r.arguments ++ format formatMarks r.format ++ ['}']

def head (subject : Reference) : Option String → List Char
  | some template =>
    escaped templateMarks template ++ '(' :: escaped templateMarks subject.name ++
      format templateMarks subject.format ++ [')']
  | none => escaped nameMarks subject.name ++ format formatMarks subject.format

def isEdge (c : Option Char) : Bool :=
  c.any fun c => Text.isBlank c || c == '"'

/-- Quotes go round a body whose edges reading would trim or unquote. -/
def quoted (e : Expression) (printed : List Char) : List Char :=
  if isEdge (Expression.firstChar? e) || isEdge (Expression.lastChar? e) then
    '"' :: printed ++ ['"']
  else printed

def branches : List (List Char) → List Char
  | [] => []
  | [branch] => branch
  | branch :: rest => branch ++ [' ', '|', ' '] ++ branches rest

def withNullCase (cases : List (List Char)) : Option (Nat × List Char) → List (List Char)
  | some (position, branch) =>
    if position ≤ cases.length then
      cases.take position ++ ('?' :: ' ' :: branch) :: cases.drop position
    else cases
  | none => cases

mutual

def part (place : Place) (first : Bool) : Part → List Char
  | .text s => text place first s
  | .reference r => reference r
  | .switch subject template cases nullCase =>
    '#' :: head subject template ++ '{' ::
      branches (withNullCase (caseBranches cases) (nullBranch nullCase)) ++ ['}']
  | .group name body => '<' :: escaped nameMarks name ++ groupBody body ++ ['>']
  | .custom node => node.content.toList

def parts (place : Place) (first : Bool) : List Part → List Char
  | [] => []
  | p :: rest => part place first p ++ parts place false rest

def groupBody : Option (List Part) → List Char
  | none => []
  | some body => ':' :: ' ' :: quoted body (parts .plain true body)

def nullBranch : Option NullCase → Option (Nat × List Char)
  | none => none
  | some ⟨position, body⟩ => some (position, quoted body (parts .plain true body))

def caseBranches : List Case → List (List Char)
  | [] => []
  | ⟨none, body⟩ :: rest => quoted body (parts .openCase true body) :: caseBranches rest
  | ⟨some spelling, body⟩ :: rest =>
    (condition spelling ++ ':' :: ' ' :: quoted body (parts .plain true body)) :: caseBranches rest

def condition : List Part → List Char
  | [] => []
  | .text s :: rest => escaped conditionMarks s ++ condition rest
  | p :: rest => part .plain false p ++ condition rest

end

end Printer

def Expression.print (e : Expression) : String :=
  String.ofList (Printer.parts .plain true e)

def Part.print (p : Part) : String :=
  String.ofList (Printer.part .plain true p)

end Phrasebook
