import Phrasebook.Dialect.Basic
import Phrasebook.Format.Basic

namespace Phrasebook

namespace Dialect

def spelling (condition : Expression) : String :=
  condition.text?.getD condition.print

/-- Gives the open cases of a templated switch, in order, the numbered conditions of the template.
The last of them takes everything. -/
def numberCases (d : Dialect) (template : String) (last : Nat) (number : Nat) :
    List BoundCase → Except BindError (List BoundCase)
  | [] => .ok []
  | c :: rest => do
    if c.isOpen then
      let c ← if number = last then pure { c with spelling := "", condition := .always }
        else do
          let spelling := "@" ++ template ++ toString number
          let condition ← d.condition .templatedSwitch spelling
          pure { c with spelling, condition }
      return c :: (← numberCases d template last (number + 1) rest)
    else return c :: (← numberCases d template last number rest)

/-- Cases with a condition come before open ones, each kind in the order written. -/
def openCasesLast (cases : List BoundCase) : List BoundCase :=
  (cases.filter fun c => !c.isOpen) ++ cases.filter fun c => c.isOpen

def arrangeCases (d : Dialect) (template : Option String) (cases : List BoundCase) :
    Except BindError (List BoundCase) :=
  match template with
  | none => .ok (openCasesLast cases)
  | some template =>
    let last := (cases.filter fun c => c.isOpen).length
    (d.numberCases template last 1 cases).map openCasesLast

mutual

def bindPart (d : Dialect) : Part → Except BindError BoundPart
  | .text s => .ok (.text s)
  | .reference ref => do
    let evaluator ← d.evaluator .parameter ref
    let formatter ← d.formatter .parameter ref.format
    return .parameter ref evaluator formatter
  | .switch subject template cases nullCase => do
    let evaluator ← d.evaluator .switch subject
    let formatter ← d.formatter .switch subject.format
    let cases ← bindCases d cases
    let nullCase ← bindNullCase d nullCase
    let cases ← d.arrangeCases template cases
    -- Without a format of its own a switch compares the value itself.
    let formatter := if formatter.isDefault then none else some formatter
    return .switch subject evaluator formatter template cases nullCase
  | .group name body => do
    let evaluator ← d.evaluator .group { name }
    let body ← bindBody d body
    return .group name evaluator d.expander body
  | .custom node => (d.customPart node).map (.custom node)

def bind (d : Dialect) : List Part → Except BindError BoundExpression
  | [] => .ok []
  | part :: rest => do
    let part ← bindPart d part
    let rest ← bind d rest
    return part :: rest

def bindBody (d : Dialect) : Option (List Part) → Except BindError (Option BoundExpression)
  | none => .ok none
  | some body => (bind d body).map some

def bindNullCase (d : Dialect) : Option NullCase → Except BindError (Option BoundExpression)
  | none => .ok none
  | some ⟨_, body⟩ => (bind d body).map some

def bindCases (d : Dialect) : List Case → Except BindError (List BoundCase)
  | [] => .ok []
  | ⟨condition, body⟩ :: rest => do
    let text := match condition with
      | some condition => spelling condition
      | none => ""
    let bound ← d.condition .switchCase text
    let body ← bind d body
    let rest ← bindCases d rest
    return ⟨condition.isNone, text, bound, body⟩ :: rest

end

end Dialect

structure Compiled where
  source : String
  expression : Expression
  bound : BoundExpression
  encodes : Bool
  transformer : Option Transformer

def Dialect.compile (d : Dialect) (pattern : String) : Except CompileError Compiled := do
  let source := match d.transformer with
    | some t => t.encode pattern
    | none => pattern
  let expression ← (d.parse source).mapError .syntaxError
  let bound ← (d.bind expression).mapError .bindError
  return ⟨pattern, expression, bound, d.encodes, d.transformer⟩

end Phrasebook
