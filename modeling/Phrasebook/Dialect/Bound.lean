import Phrasebook.Condition.Basic
import Phrasebook.Pattern.Expression

namespace Phrasebook

inductive LookupKey where
  | fixed (key : String)
  | parameter (name suffix : String)
deriving DecidableEq, Repr

inductive LookupArgument where
  | skipped
  | literal (s : String)
  | parameter (name : String) (format : Option Formatter)

structure HostEvaluator where
  kind : String
  evaluate : Scene → Except EvalError Parameter

inductive Evaluator where
  | direct (name : String)
  | property (base : String) (path : List String)
  | lookup (key : LookupKey) (arguments : List LookupArgument)
  | host (evaluator : HostEvaluator)

inductive Expander where
  | hashMark
  | host (kind : String) (expand : String → String → String)

structure CustomPart where
  kind : String
  render : Scene → Except EvalError String × Scene

mutual

inductive BoundPart where
  | text (content : String)
  | parameter (ref : Reference) (evaluator : Evaluator) (formatter : Formatter)
  | switch (subject : Reference) (evaluator : Evaluator) (formatter : Option Formatter)
      (template : Option String) (cases : List BoundCase) (nullCase : Option (List BoundPart))
  | group (name : String) (evaluator : Evaluator) (expander : Expander)
      (body : Option (List BoundPart))
  | custom (node : CustomNode) (part : CustomPart)

/-- A case with the spelling of its condition. It is open if it was written without one. -/
structure BoundCase where
  isOpen : Bool
  spelling : String
  condition : Condition
  body : List BoundPart

end

instance : Inhabited BoundPart := ⟨.text ""⟩

abbrev BoundExpression := List BoundPart

def BoundExpression.text? : BoundExpression → Option String
  | [.text s] => some s
  | _ => none

mutual

def BoundPart.anyCondition (p : Condition → Bool) : BoundPart → Bool
  | .switch _ _ _ _ cases nullCase => BoundCase.anyCondition p cases || BoundExpression.anyInBody p nullCase
  | .group _ _ _ content => BoundExpression.anyInBody p content
  | _ => false

/-- Whether some condition of a switch passes, at whatever depth. -/
def BoundExpression.anyCondition (p : Condition → Bool) : BoundExpression → Bool
  | [] => false
  | q :: rest => q.anyCondition p || BoundExpression.anyCondition p rest

def BoundExpression.anyInBody (p : Condition → Bool) : Option BoundExpression → Bool
  | none => false
  | some e => BoundExpression.anyCondition p e

def BoundCase.anyCondition (p : Condition → Bool) : List BoundCase → Bool
  | [] => false
  | ⟨_, _, c, e⟩ :: rest => p c || BoundExpression.anyCondition p e || BoundCase.anyCondition p rest

end

namespace Evaluator

def kind : Evaluator → String
  | direct _ => "DirectEvaluator"
  | property _ _ => "PropertyEvaluator"
  | lookup _ _ => "LookupEvaluator"
  | host e => e.kind

end Evaluator

namespace Expander

def kind : Expander → String
  | hashMark => "HashTagExpander"
  | host kind _ => kind

def expand : Expander → (wrapper content : String) → String
  | hashMark, wrapper, content => Text.replace wrapper "\x7b#\x7d" content
  | host _ expand, wrapper, content => expand wrapper content

end Expander

end Phrasebook
