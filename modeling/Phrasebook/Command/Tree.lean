import Phrasebook.Pattern.Expression
import Phrasebook.Text.Report

namespace Phrasebook

def field? {α : Type} (name : String) (f : α → Report) : Option α → List (String × Report)
  | some x => [(name, f x)]
  | none => []

def Reference.fields (r : Reference) : List (String × Report) :=
  [("name", .string r.name), ("format", .string r.format)] ++ field? "arguments" .string r.arguments

mutual

def Part.report : Part → Report
  | .text s => .object [("kind", .string "text"), ("text", .string s)]
  | .reference r => .object (("kind", .string "parameter") :: r.fields)
  | .switch subject template cases nullCase =>
    .object
      ([("kind", .string "switch"), ("parameter", .object subject.fields)] ++
        field? "template" .string template ++ [("cases", .array (caseReports cases))] ++
        nullCaseField nullCase)
  | .group name body =>
    .object ([("kind", .string "format_group"), ("name", .string name)] ++ expressionField body)
  | .custom node =>
    .object
      [("kind", .string "custom"), ("node", .string node.kind), ("content", .string node.content)]

def partReports : List Part → List Report
  | [] => []
  | p :: rest => p.report :: partReports rest

def expressionField : Option (List Part) → List (String × Report)
  | some parts => [("expression", .object [("parts", .array (partReports parts))])]
  | none => []

def conditionField : Option (List Part) → List (String × Report)
  | some parts => [("condition", .object [("parts", .array (partReports parts))])]
  | none => []

def nullCaseField : Option NullCase → List (String × Report)
  | some ⟨position, body⟩ =>
    [("null_case", .object [("position", .number position),
      ("expression", .object [("parts", .array (partReports body))])])]
  | none => []

def caseReports : List Case → List Report
  | [] => []
  | ⟨condition, body⟩ :: rest =>
    .object (conditionField condition ++
      [("expression", .object [("parts", .array (partReports body))])]) :: caseReports rest

end

def Expression.report (e : Expression) : Report :=
  .object [("parts", .array (partReports e))]

end Phrasebook
