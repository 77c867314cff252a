import Phrasebook.Script.Evaluator

namespace Phrasebook

namespace Script

open Code

def numeric (value : Code) : Code := word "+" ++ value

def isNumber (value : Code) : Code := word "!" ++ call "isNaN" [numeric value]

def listCode (l : ValueList) (value : Code) : Code :=
  let equality := word (if l.negated then "!==" else "===")
  let tests := match l.values with
    | .numbers values =>
      (if l.negated then [isNumber value] else []) ++
        values.map fun x => numeric value ++ equality ++ number x
    | .strings values =>
      values.map fun s => literal "" ++ word "+" ++ value ++ equality ++ literal s
  if tests.isEmpty then word (if l.negated then "true" else "false")
  else parens (separated (if l.negated then "&&" else "||") tests)

def boundCode (value : Code) (comparison : String) (bound : Float) : Code :=
  numeric value ++ word comparison ++ number bound

def boundsCode (i : Interval Float) (value : Code) : Code :=
  let low := i.min.map (boundCode value (if i.minInclusive then ">=" else ">"))
  let high := i.max.map (boundCode value (if i.maxInclusive then "<=" else "<"))
  match low.toList ++ high.toList with
  | [] => isNumber value
  | tests => parens (separated "&&" tests)

/-- Durations count milliseconds in scripts. -/
def rangeCode (range : Range) (value : Code) : Code :=
  match range with
  | .numbers i => boundsCode i value
  | .spans i =>
    let milliseconds := fun d : Span => floatOfInt d.milliseconds
    boundsCode ⟨i.min.map milliseconds, i.max.map milliseconds, i.minInclusive, i.maxInclusive⟩
      value

def truncated (x : Float) : Float :=
  if x < 0 then x.ceil else x.floor

def operationCode (subject : Code) : Operation × Float → Code
  | (.floorDivide, x) => call "Math.floor" [subject ++ word "/" ++ operand x]
  | (.modulo, x) =>
    parens (call "Math.trunc" [subject] ++ word "%" ++ operand (truncated x))
  | (op, x) => parens (subject ++ word (String.singleton op.symbol) ++ operand x)

def comparisonSymbol : Comparison → String
  | .equal => "==="
  | .notEqual => "!=="
  | comparison => comparison.symbol

def arithmeticCode (a : Arithmetic) (value : Code) : Code :=
  let outcome := a.operations.foldl operationCode (numeric value)
  let comparison := outcome ++ word (comparisonSymbol a.comparison) ++ number a.target
  parens (if a.comparison = .notEqual then isNumber value ++ word "&&" ++ comparison
    else comparison)

def connectiveSymbol : Connective → String
  | .and => "&&"
  | .or => "||"

def conditionCode (r : Registry) (s : Scope) (deeper : Condition → Code → Code) (depth : Nat)
    (value : Code) : Condition → Code
  | .connective left c right =>
    dispatch r (.condition (.connective left c right)) depth [value] fun _ =>
      parens (conditionCode r s deeper depth value left ++ word (connectiveSymbol c) ++
        conditionCode r s deeper depth value right)
  | .stored space key =>
    dispatch r (.condition (.stored space key)) depth [value] fun _ =>
      match s.condition? space key with
      | some c => deeper c value
      | none => word "false"
  | .always => dispatch r (.condition .always) depth [value] fun _ => word "true"
  | .arithmetic a =>
    dispatch r (.condition (.arithmetic a)) depth [value] fun _ => arithmeticCode a value
  | .range range =>
    dispatch r (.condition (.range range)) depth [value] fun _ => rangeCode range value
  | .oneOf l => dispatch r (.condition (.oneOf l)) depth [value] fun _ => listCode l value
  | c => dispatch r (.condition c) depth [value] fun _ => word "undefined"

/-- The code of a stored condition. Those that lie too deep never hold. -/
def storedCode (r : Registry) (s : Scope) : Nat → Condition → Code → Code
  | 0, _, _ => word "false"
  | n + 1, c, value => conditionCode r s (storedCode r s n) (defaultMaxDepth - n) value c

def caseTest (r : Registry) (s : Scope) (c : Condition) (value : Code) : Code :=
  conditionCode r s (storedCode r s defaultMaxDepth) 0 value c

end Script

end Phrasebook
