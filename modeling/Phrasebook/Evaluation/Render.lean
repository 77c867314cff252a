import Phrasebook.Evaluation.Evaluator
import Phrasebook.Format.Basic

namespace Phrasebook

def Parameter.atOffset (p : Parameter) (zone : Int) : Parameter :=
  match p.value with
  | .moment m => p.withValue (.moment (m.atOffset zone))
  | _ => p

def Parameter.wrap (p : Parameter) (hosts : Host) (formatted : String) (encoder : Encoder) : String :=
  match p.wrapping with
  | .encoded => encoder.encode formatted
  | .unencoded => formatted
  | .template text => Text.replace text "\x7b#\x7d" (encoder.encode formatted)
  | .custom name => hosts.wrap name p.value formatted encoder

/-- Where formatting fails, the invariant text is written. -/
def Parameter.write (p : Parameter) (f : Formatter) (ctx : Context) : String :=
  let p := p.atOffset ctx.zone
  let text := match f.apply ctx.host ctx.toScene p with
    | .ok s => s
    | .error _ => p.value.invariantText
  p.wrap ctx.host text ctx.encoder

def Parameter.element (list item : Parameter) : Parameter :=
  let e := if item.isPlain then list.withValue item.value else item
  match e.defaultFormat, list.defaultFormat with
  | none, some f => e.withDefaultFormat f
  | _, _ => e

namespace Render

def current (format : Option Formatter) (p : Parameter) (ctx : Context) : Parameter :=
  match format with
  | some f => .unencoded (p.write f ctx)
  | none => p

def index (i : Int) : Parameter := .plain (.integer (Int64.ofInt i))

/-- A case for an element counts from the front or from the back. -/
def testElement (deeper : Deeper) (condition : Condition) (i length : Nat) : Run Bool := do
  if ← condition.test deeper (index i) then return true
  else condition.test deeper (index ((i : Int) - length))

def eachElement (list : Parameter) (format : Option Formatter) (length : Nat)
    (body : Nat → Run String) : Nat → List Parameter → Run String
  | _, [] => return ""
  | i, item :: rest => do
    let text ← Run.inScope do
      let p := current format (list.element item) (← get)
      Run.setTop "#" p
      Run.setTop "#Index" (index (i + 1))
      body i
    return text ++ (← eachElement list format length body (i + 1) rest)

mutual

def part (deeper : Deeper) : BoundPart → Run String
  | .text s => do
    return (← get).encoder.encode s
  | .parameter _ evaluator formatter => do
    let p ← evaluator.evaluate deeper
    return p.write formatter (← get)
  | .switch _ evaluator format _ cases nullCase => do
    let p ← evaluator.evaluate deeper
    match p.value with
    | .null => body deeper nullCase
    | .list items =>
      eachElement p format items.length
        (fun i => firstCase deeper (testElement deeper · i items.length) cases) 0 items
    | _ =>
      Run.inScope do
        Run.setTop "#" (current format p (← get))
        firstCase deeper (Condition.test deeper p) cases
  | .group _ evaluator expander content => do
    let wrapper := (← evaluator.evaluate deeper).value.invariantText
    let inner ← body deeper content
    return if wrapper.isEmpty then inner else expander.expand wrapper inner
  | .custom _ part => Run.onScene part.render

def parts (deeper : Deeper) : List BoundPart → Run String
  | [] => return ""
  | p :: rest => do
    let text ← part deeper p
    return text ++ (← parts deeper rest)

def body (deeper : Deeper) : Option (List BoundPart) → Run String
  | none => return ""
  | some parts => Render.parts deeper parts

def firstCase (deeper : Deeper) (passes : Condition → Run Bool) :
    List BoundCase → Run String
  | [] => return ""
  | ⟨_, _, condition, body⟩ :: rest => do
    if ← passes condition then parts deeper body
    else firstCase deeper passes rest

end

/-- Renders under a scope of its own, so that the caller's layers are not written to. -/
def expression (deeper : Deeper) (e : BoundExpression) : Run String :=
  Run.inScope (parts deeper e)

end Render

def Compiled.renderWith (c : Compiled) (deeper : Deeper) : Run String := do
  let act := Render.expression deeper c.bound
  let text ← if c.encodes then act else Run.withEncoder .identity act
  return match c.transformer with
    | some t => t.decode text
    | none => text

/-- What can be done with some calls to go. With none left every lookup is refused. -/
def Deeper.level : Nat → Deeper
  | 0 =>
    let refuse {α : Type} : Run α := do
      throw (.maxDepthExceeded (← get).maxDepth)
    ⟨fun _ => refuse, fun _ _ => refuse⟩
  | n + 1 => ⟨fun c => c.renderWith (level n), fun c p => c.test (level n) p⟩

def Context.remaining (ctx : Context) : Nat :=
  ctx.maxDepth - ctx.calls.length

def Compiled.evaluate (c : Compiled) : Run String := do
  c.renderWith (.level (← get).remaining)

def BoundExpression.evaluate (e : BoundExpression) : Run String := do
  Render.expression (.level (← get).remaining) e

def Condition.evaluate (c : Condition) (p : Parameter) : Run Bool := do
  c.test (.level (← get).remaining) p

end Phrasebook
