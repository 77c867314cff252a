import Phrasebook.Command.Table
import Phrasebook.Dialect.Binding
import Phrasebook.Text.Report

namespace Phrasebook

structure Explanation where
  /-- How many cases and groups are around it. -/
  depth : Nat
  construct : String
  text : String
  role : String
  strategy : String
deriving DecidableEq, Repr

namespace Explanation

mutual

def ofPart (depth : Nat) : BoundPart → List Explanation
  | .text _ => []
  | .parameter ref e f =>
    [⟨depth, "parameter", ref.name, "evaluator", e.kind⟩,
     ⟨depth, "parameter", ref.format, "formatter", f.kind⟩]
  | .switch subject e format _ cases nullCase =>
    ⟨depth, "switch", subject.name, "evaluator", e.kind⟩ ::
      (format.toList.map fun f => ⟨depth, "switch", subject.format, "formatter", f.kind⟩) ++
      ofCases depth cases ++ ofBody (depth + 1) nullCase
  | .group name e expander body =>
    [⟨depth, "format group", name, "evaluator", e.kind⟩,
     ⟨depth, "format group", name, "expander", expander.kind⟩] ++ ofBody (depth + 1) body
  | .custom node part => [⟨depth, "custom", node.content, "custom part", part.kind⟩]

def ofParts (depth : Nat) : List BoundPart → List Explanation
  | [] => []
  | p :: rest => ofPart depth p ++ ofParts depth rest

def ofBody (depth : Nat) : Option (List BoundPart) → List Explanation
  | none => []
  | some parts => ofParts depth parts

def ofCases (depth : Nat) : List BoundCase → List Explanation
  | [] => []
  | ⟨_, spelling, c, body⟩ :: rest =>
    ⟨depth, "case", spelling, "condition", c.kind⟩ :: ofParts (depth + 1) body ++
      ofCases depth rest

end

def ofExpression (e : BoundExpression) : List Explanation :=
  ofParts 0 e

def report (x : Explanation) : Report :=
  .object
    [("depth", .number x.depth), ("construct", .string x.construct), ("text", .string x.text),
     ("role", .string x.role), ("strategy", .string x.strategy)]

def row (x : Explanation) : List String :=
  [String.ofList (List.replicate (2 * x.depth) ' ') ++ x.construct, x.text, x.role, x.strategy]

def table (xs : List Explanation) : String :=
  Table.text ["Construct", "Text", "Role", "Strategy"] (xs.map row)

end Explanation

end Phrasebook
