import Phrasebook.Evaluation.Condition
import Phrasebook.Text.Distance
import Phrasebook.Value.Property

namespace Phrasebook

namespace Evaluator

/-- Follows a path; what a null value would have is null. -/
def follow : Value → List String → Except EvalError Value
  | value, [] => .ok value
  | .null, _ => .ok .null
  | value, name :: rest =>
    match value.property? name with
    | some part => follow part rest
    | none => .error (.unknownProperty name value.kind)

def readProperty (base : String) (path : List String) : Run Parameter := do
  match ← Run.get? base with
  | none => return .plain .null
  | some p =>
    match follow p.value path with
    | .ok value => return .plain value
    | .error e => throw e

def splitKey (home : String) (s : String) : String × String :=
  match Text.splitOnce Condition.spaceMark s.toList with
  | some (space, key) => (String.ofList space, String.ofList key)
  | none => (home, s)

def target? (key : LookupKey) (ctx : Context) : Option (String × String) :=
  match key with
  | .fixed key => some (splitKey ctx.space key)
  | .parameter name suffix =>
    (ctx.layers.get? name).map fun p => splitKey ctx.space (p.value.invariantText ++ suffix)

/-- Sets an argument by its position, and by its name if it is a parameter. -/
def pass (layers : Layers) (parameters : ParameterSet) (position : Nat) :
    LookupArgument → ParameterSet
  | .skipped => parameters
  | .literal s => parameters.set (toString position) (.plain (.text s))
  | .parameter name format =>
    let p := (layers.get? name).getD (.plain .null)
    let p := match format with
      | some f => p.withDefaultFormat f
      | none => p
    (parameters.set name p).set (toString position) p

def passAll (layers : Layers) :
    (parameters : ParameterSet) → (position : Nat) → List LookupArgument → ParameterSet
  | parameters, _, [] => parameters
  | parameters, position, argument :: rest =>
    passAll layers (pass layers parameters position argument) (position + 1) rest

/-- Renders a stored pattern; its text is encoded already. -/
def renderStored (deeper : Deeper) (key : LookupKey) (arguments : List LookupArgument) :
    Run Parameter := do
  let ctx ← get
  match target? key ctx with
  | none => return .plain .null
  | some (space, key) =>
    match ctx.lookup with
    | none => throw (.unresolvedLookup space key [])
    | some books =>
      match books.store.find? space key ctx.language with
      | none =>
        throw (.unresolvedLookup space key (Text.suggestions key (books.store.keys space)))
      | some pattern =>
        let call := Call.stored space key
        Run.within call do
          match books.dialect.compile pattern with
          | .error e => throw (.compile call.name e)
          | .ok compiled =>
            Run.note (.compiled pattern)
            let parameters := passAll ctx.layers .empty 0 arguments
            let text ← Run.asChild space parameters (deeper.render compiled)
            return .unencoded text

def evaluate (deeper : Deeper) : Evaluator → Run Parameter
  | direct name => do
    return (← Run.get? name).getD (.plain .null)
  | property base path => readProperty base path
  | lookup key arguments => renderStored deeper key arguments
  | host e => do
    match e.evaluate (← get).toScene with
    | .ok p => return p
    | .error e => throw e

end Evaluator

end Phrasebook
