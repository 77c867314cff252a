import Phrasebook.Dialect.Binding
import Phrasebook.Store

namespace Phrasebook

structure Lookup where
  store : Store
  dialect : Dialect

inductive Event where
  | entered (calls : List Call)
  | compiled (pattern : String)
deriving DecidableEq, Repr

structure Context extends Scene where
  host : Host := {}
  lookup : Option Lookup
  /-- What happened so far, latest first. -/
  journal : List Event

/-- A run changes its context also where it fails. -/
abbrev Run (α : Type) := ExceptT EvalError (StateM Context) α

def defaultMaxDepth : Nat := 64

namespace Run

variable {α : Type}

def inScope (act : Run α) : Run α := fun ctx =>
  let (result, after) := act { ctx with layers := ctx.layers.push }
  (result, { after with layers := after.layers.pop })

/-- Puts a lookup on the chain. A chain that is full or has it already refuses it. -/
def enter (call : Call) : Run Unit := fun ctx =>
  if ctx.maxDepth ≤ ctx.calls.length then (.error (.maxDepthExceeded ctx.maxDepth), ctx)
  else if ctx.calls.any fun c => c.name = call.name then
    (.error (.cyclicReference (ctx.calls ++ [call])), ctx)
  else
    let calls := ctx.calls ++ [call]
    (.ok (), { ctx with calls, journal := .entered calls :: ctx.journal })

def within (call : Call) (act : Run α) : Run α := do
  enter call
  fun ctx =>
    let (result, after) := act ctx
    (result, { after with calls := after.calls.dropLast })

def asChild (space : String) (parameters : ParameterSet) (act : Run α) : Run α := fun ctx =>
  let (result, after) := act { ctx with space, layers := [parameters] }
  (result, { ctx with journal := after.journal })

def withEncoder (encoder : Encoder) (act : Run α) : Run α := fun ctx =>
  let (result, after) := act { ctx with encoder }
  (result, { after with encoder := ctx.encoder })

def note (event : Event) : Run Unit :=
  modify fun ctx => { ctx with journal := event :: ctx.journal }

def setTop (name : String) (p : Parameter) : Run Unit :=
  modify fun ctx => { ctx with layers := ctx.layers.set name p }

/-- Runs a part of a host, which sees the scene alone. -/
def onScene (act : Scene → Except EvalError α × Scene) : Run α := fun ctx =>
  let (result, scene) := act ctx.toScene
  (result, { ctx with toScene := scene })

def get? (name : String) : Run (Option Parameter) := do
  return (← get).layers.get? name

end Run

end Phrasebook
