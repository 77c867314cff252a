import Phrasebook.Text.Pieces

namespace Phrasebook

inductive UsageError where
  | missingCommand
  | unknownCommand
  | unknownArgument
  | missingArgument
  | missingValue
  | unexpectedValue
  | invalidValue
  | conflict
  | help
  | version
deriving DecidableEq, Repr

namespace Arguments

inductive Arity where
  | flag
  /-- A flag in whose place help is shown. -/
  | help
  /-- One value. The option is given once at most. -/
  | value
  /-- A value that passes a test. The option may be given again. -/
  | values (accepts : String → Bool)

structure OptionSpec where
  name : String
  letter : Option Char := none
  arity : Arity

structure Grammar where
  options : List OptionSpec
  /-- How many operands there may be, if their number is limited. -/
  mostOperands : Option Nat
  needsOperand : Bool
  /-- Options that are not given together. -/
  exclusive : List (String × String)

structure Given where
  options : List (String × String) := []
  operands : List String := []
deriving DecidableEq, Repr

namespace Given

def has (g : Given) (name : String) : Bool :=
  g.options.any fun (n, _) => n == name

def value? (g : Given) (name : String) : Option String :=
  g.options.lookup name

def values (g : Given) (name : String) : List String :=
  (g.options.filter fun (n, _) => n == name).map Prod.snd

def add (g : Given) (name value : String) : Given :=
  { g with options := g.options ++ [(name, value)] }

end Given

structure Reading where
  given : Given := {}
  /-- An option whose value is still to come or to be looked at. -/
  pending : Option (OptionSpec × Option String) := none
  operandsOnly : Bool := false

def OptionSpec.takesValue (o : OptionSpec) : Bool :=
  match o.arity with
  | .value | .values _ => true
  | .flag | .help => false

namespace Reading

def once (r : Reading) (name value : String) : Except UsageError Reading :=
  if r.given.has name then .error .conflict
  else .ok { r with given := r.given.add name value }

def accept (r : Reading) (o : OptionSpec) (value : Option String) : Except UsageError Reading :=
  match o.arity, value with
  | .help, _ => .error .help
  | .flag, _ => r.once o.name ""
  | .value, some v => r.once o.name v
  | .values accepts, some v =>
    if accepts v then .ok { r with given := r.given.add o.name v } else .error .invalidValue
  | .value, none | .values _, none => .error .missingValue

def settle (r : Reading) : Except UsageError Reading :=
  match r.pending with
  | none => .ok r
  | some (o, value) => { r with pending := none }.accept o value

def option (r : Reading) (o : OptionSpec) (attached : Option String) :
    Except UsageError Reading := do
  if o.takesValue then
    let r ← r.settle
    if attached.isSome then r.accept o attached
    else return { r with pending := some (o, none) }
  else if attached.isSome then throw .unexpectedValue
  else (← r.settle).accept o none

def long (g : Grammar) (r : Reading) (s : List Char) : Except UsageError Reading :=
  let (name, attached) := match Text.splitOnce ['='] s with
    | some (name, value) => (String.ofList name, some (String.ofList value))
    | none => (String.ofList s, none)
  match g.options.find? fun o => o.name == name with
  | some o => r.option o attached
  | none => .error .unknownArgument

def attached? : List Char → Option String
  | [] => none
  | '=' :: value => some (String.ofList value)
  | value => some (String.ofList value)

def letters (g : Grammar) : Reading → List Char → Except UsageError Reading
  | r, [] => .ok r
  | r, c :: rest =>
    match g.options.find? fun o => o.letter == some c with
    | none => .error .unknownArgument
    | some o =>
      if o.takesValue then r.option o (attached? rest)
      else (r.option o none).bind fun r => letters g r rest

def operand (g : Grammar) (r : Reading) (s : String) : Except UsageError Reading := do
  if g.mostOperands.any (· ≤ r.given.operands.length) then throw .unknownArgument
  let r ← r.settle
  return { r with given := { r.given with operands := r.given.operands ++ [s] } }

/-- Reads a word. After two hyphens all words are operands. -/
def word (g : Grammar) (r : Reading) (s : String) : Except UsageError Reading :=
  if r.operandsOnly then r.operand g s
  else
    match s.toList with
    | ['-', '-'] => .ok { r with operandsOnly := true }
    | '-' :: '-' :: rest => long g r rest
    | '-' :: c :: rest => letters g r (c :: rest)
    | _ =>
      match r.pending with
      | some (o, none) => .ok { r with pending := some (o, some s) }
      | _ => r.operand g s

end Reading

def read (g : Grammar) (words : List String) : Except UsageError Given := do
  let r ← words.foldlM (fun r s => r.word g s) ({} : Reading)
  let given := (← r.settle).given
  if g.exclusive.any fun (a, b) => given.has a && given.has b then throw .conflict
  if g.needsOperand && given.operands.isEmpty then throw .missingArgument
  return given

end Arguments

end Phrasebook
