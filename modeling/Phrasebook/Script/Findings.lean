import Phrasebook.Script.Registry

namespace Phrasebook

namespace Script

/-- The kinds of strategies met in a pattern, each once and in the order met: those with a
generator and those without. -/
structure Findings where
  used : List StrategyKind := []
  missing : List StrategyKind := []
deriving DecidableEq, Repr

def addOnce {α : Type} [BEq α] (x : α) (xs : List α) : List α :=
  if xs.contains x then xs else xs ++ [x]

namespace Findings

def note (r : Registry) (kind : StrategyKind) (f : Findings) : Findings :=
  if r.contains kind then { f with used := addOnce kind f.used }
  else { f with missing := addOnce kind f.missing }

def noteAll (r : Registry) (kinds : List StrategyKind) (f : Findings) : Findings :=
  kinds.foldl (fun f kind => f.note r kind) f

/-- Notes a strategy, and then what is inside it if built-in code is to be written for it. -/
def visit (r : Registry) (kind : StrategyKind) (inner : Findings → Findings) (f : Findings) :
    Findings :=
  match r.find? kind with
  | none => f.note r kind
  | some .builtIn => inner (f.note r kind)
  | some (.host h) => (f.note r kind).noteAll r h.needs

def formatter (r : Registry) (format : Formatter) (f : Findings) : Findings :=
  f.visit r (Strategy.formatter format).kind id

def argument (r : Registry) (f : Findings) : LookupArgument → Findings
  | .parameter _ (some format) => f.formatter r format
  | _ => f

def evaluator (r : Registry) (e : Evaluator) (f : Findings) : Findings :=
  f.visit r (Strategy.evaluator e).kind fun f =>
    match e with
    | .lookup _ arguments => arguments.foldl (argument r) f
    | _ => f

def condition (r : Registry) (s : Scope) (deeper : Condition → Findings → Findings) :
    Condition → Findings → Findings
  | .connective left c right, f =>
    f.visit r (Strategy.condition (.connective left c right)).kind fun f =>
      condition r s deeper right (condition r s deeper left f)
  | .stored space key, f =>
    f.visit r (Strategy.condition (.stored space key)).kind fun f =>
      match s.condition? space key with
      | some c => deeper c f
      | none => f
  | c, f => f.visit r (Strategy.condition c).kind id

def storedCondition (r : Registry) (s : Scope) : Nat → Condition → Findings → Findings
  | 0, _, f => f
  | n + 1, c, f => condition r s (storedCondition r s n) c f

mutual

def part (r : Registry) (s : Scope) : BoundPart → Findings → Findings
  | .text _, f => f
  | .parameter _ e format, f => (f.evaluator r e).formatter r format
  | .switch _ e format _ cases nullCase, f =>
    let f := f.evaluator r e
    let f := match format with
      | some format => f.formatter r format
      | none => f
    body r s nullCase (Findings.cases r s cases f)
  | .group _ e expander content, f =>
    body r s content ((f.evaluator r e).visit r (Strategy.expander expander).kind id)
  | .custom node part, f => f.visit r (Strategy.customPart node part).kind id

def parts (r : Registry) (s : Scope) : List BoundPart → Findings → Findings
  | [], f => f
  | p :: rest, f => parts r s rest (part r s p f)

def body (r : Registry) (s : Scope) : Option (List BoundPart) → Findings → Findings
  | none, f => f
  | some e, f => parts r s e f

def cases (r : Registry) (s : Scope) : List BoundCase → Findings → Findings
  | [], f => f
  | ⟨_, _, c, e⟩ :: rest, f =>
    cases r s rest (parts r s e (condition r s (storedCondition r s defaultMaxDepth) c f))

end

end Findings

def findings (r : Registry) (s : Scope) (e : BoundExpression) : Findings :=
  Findings.parts r s e {}

/-- Whether what is inside a strategy is gone through: only for built-in code. -/
def Registry.looksInside (r : Registry) (strategy : Strategy) : Bool :=
  match r.find? strategy.kind with
  | some .builtIn => true
  | _ => false

def conditionStops (r : Registry) (s : Scope) (deeper : Condition → Bool) : Condition → Bool
  | .connective left c right =>
    r.looksInside (.condition (.connective left c right)) &&
      (conditionStops r s deeper left || conditionStops r s deeper right)
  | .stored space key =>
    r.looksInside (.condition (.stored space key)) &&
      (s.stopsOn space key || (s.condition? space key).any deeper)
  | _ => false

def storedStops (r : Registry) (s : Scope) : Nat → Condition → Bool
  | 0, _ => false
  | n + 1, c => conditionStops r s (storedStops r s n) c

/-- Whether the program stops in going through a pattern. Code is written of what has been gone through. -/
def stops (r : Registry) (s : Scope) (e : BoundExpression) : Bool :=
  e.anyCondition (conditionStops r s (storedStops r s defaultMaxDepth))

def missingKinds (r : Registry) (s : Scope) (e : BoundExpression) : List StrategyKind :=
  (findings r s e).missing

end Script

end Phrasebook
