import Phrasebook.Dialect.Binding

namespace Phrasebook

namespace Script

inductive Role where
  | evaluator
  | formatter
  | condition
  | expander
  | customPart
deriving DecidableEq, Repr

inductive Strategy where
  | evaluator (e : Evaluator)
  | formatter (f : Formatter)
  | condition (c : Condition)
  | expander (x : Expander)
  | customPart (node : CustomNode) (part : CustomPart)

/-- Strategies of one kind share their generator. -/
structure StrategyKind where
  role : Role
  name : String
deriving DecidableEq, Repr

def Strategy.kind : Strategy → StrategyKind
  | evaluator e => ⟨.evaluator, e.kind⟩
  | formatter f => ⟨.formatter, f.kind⟩
  | condition c => ⟨.condition, c.kind⟩
  | expander x => ⟨.expander, x.kind⟩
  | customPart _ part => ⟨.customPart, part.kind⟩

def Role.name : Role → String
  | evaluator => "ParameterEvaluator"
  | formatter => "ValueFormatter"
  | condition => "SwitchCondition"
  | expander => "FormatGroupExpander"
  | customPart => "CustomPart"

def StrategyKind.missingText (kind : StrategyKind) : String :=
  "Missing " ++ kind.role.name ++ ": " ++ kind.name

end Script

end Phrasebook
