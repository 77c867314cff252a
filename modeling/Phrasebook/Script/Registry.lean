import Phrasebook.Evaluation.Context
import Phrasebook.Script.Code
import Phrasebook.Script.Strategy

namespace Phrasebook

namespace Script

structure HostGenerator where
  /-- Functions that the code calls. -/
  helpers : String := ""
  /-- What else has to have a generator for this one to work. -/
  needs : List StrategyKind := []
  /-- The code for a strategy at a depth of stored conditions, applied to arguments. -/
  write : Strategy → (depth : Nat) → (arguments : List Code) → Code

inductive Generator where
  | builtIn
  | host (generator : HostGenerator)

/-- The generators of kinds of strategies; the first for a kind is the one in force. -/
structure Registry where
  generators : List (StrategyKind × Generator) := []

/-- What is known when a script is written. Without stored patterns no stored condition holds. -/
structure Scope where
  space : String := ""
  language : Language := .invariant
  lookup : Option Lookup := none

namespace Registry

def empty : Registry := {}

def register (r : Registry) (kind : StrategyKind) (generator : Generator) : Registry :=
  ⟨(kind, generator) :: r.generators⟩

def find? (r : Registry) (kind : StrategyKind) : Option Generator :=
  r.generators.lookup kind

def contains (r : Registry) (kind : StrategyKind) : Bool :=
  (r.find? kind).isSome

/-- All kinds with built-in code: roman numerals and plural categories have none. -/
def builtInKinds : List StrategyKind :=
  [⟨.evaluator, "DirectEvaluator"⟩,
   ⟨.evaluator, "PropertyEvaluator"⟩,
   ⟨.evaluator, "LookupEvaluator"⟩,
   ⟨.formatter, "DefaultFormatter"⟩,
   ⟨.formatter, "CaseFormatter"⟩,
   ⟨.formatter, "FormatStringFormatter"⟩,
   ⟨.condition, "TakeAllCondition"⟩,
   ⟨.condition, "ValueListCondition"⟩,
   ⟨.condition, "IntervalCondition"⟩,
   ⟨.condition, "BooleanCondition"⟩,
   ⟨.condition, "ArithmeticCondition"⟩,
   ⟨.condition, "LookupCondition"⟩,
   ⟨.expander, "HashTagExpander"⟩]

def builtIns (kinds : List StrategyKind) : Registry :=
  ⟨kinds.map fun kind => (kind, .builtIn)⟩

def standard : Registry := builtIns builtInKinds

end Registry

def caseHelpers : String :=
  "function _lc(s)\x7breturn s.toLocaleLowerCase(m.culture.name||undefined);\x7d\n" ++
  "function _uc(s)\x7breturn s.toLocaleUpperCase(m.culture.name||undefined);\x7d\n" ++
  "function _cf(s)\x7breturn s===\"\"?s:_uc(s.charAt(0))+_lc(s.substring(1));\x7d\n" ++
  "function _ca(s)\x7breturn s.split(\" \").map(_cf).join(\" \");\x7d\n"

def Generator.helpers (g : Generator) (kind : StrategyKind) : String :=
  match g with
  | host h => h.helpers
  | builtIn => if kind = ⟨.formatter, "CaseFormatter"⟩ then caseHelpers else ""

def Registry.addHelper (r : Registry) (written : String) (kind : StrategyKind) : String :=
  let helper := ((r.find? kind).map (·.helpers kind)).getD ""
  if (Text.splitOnce helper.toList written.toList).isSome then written else written ++ helper

def Registry.helpers (r : Registry) (used : List StrategyKind) : String :=
  used.foldl r.addHelper ""

/-- The condition stored under a key, if there is one, or why its text cannot be read. -/
def Scope.stored? (s : Scope) (space : Option String) (key : String) : Option (Except BindError Condition) := do
  let lookup ← s.lookup
  let text ← lookup.store.find? (space.getD s.space) key s.language
  if Text.trim text.toList = [] then none
  else some (lookup.dialect.condition .switchCase text)

def Scope.condition? (s : Scope) (space : Option String) (key : String) : Option Condition :=
  (s.stored? space key).bind Except.toOption

/-- Whether the program stops in reading what is stored under a key. -/
def Scope.stopsOn (s : Scope) (space : Option String) (key : String) : Bool :=
  match s.stored? space key with
  | some (.error e) => e = .overflow
  | _ => false

end Script

end Phrasebook
