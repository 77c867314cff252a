import Phrasebook.Dialect.Bound
import Phrasebook.Pattern.Printer

namespace Phrasebook

inductive FormatterRule where
  | roman
  | letterCase
  | formatString
  | default
  | host (accept? : String → Option Formatter)

inductive ConditionRule where
  | takeAll
  | connective
  | stored
  | arithmetic
  | interval
  | plural
  | valueList
  | host (accept? : String → Option Condition)

inductive EvaluatorRule where
  | lookup
  | property
  | direct
  | host (accept? : Reference → Option Evaluator)

abbrev CustomPartRule := CustomNode → Option CustomPart

structure Transformer where
  encode : String → String
  decode : String → String

structure Dialect where
  parse : String → Except SyntaxError Expression
  transformer : Option Transformer := none
  encodes : Bool := true
  evaluators : List EvaluatorRule := []
  formatters : List FormatterRule := []
  conditions : List ConditionRule := []
  customParts : List CustomPartRule := []
  expander : Expander := .hashMark

def Transformer.htmlTags : Transformer where
  encode s := String.ofList (Text.hideTags s.toList)
  decode s := String.ofList (Text.restoreTags s.toList)

namespace FormatterRule

def accept? : FormatterRule → String → Option Formatter
  | roman, format => if format = "roman" then some .roman else none
  | letterCase, format => (LetterCase.ofToken? format).map .letterCase
  | formatString, format => if format.isEmpty then none else some (.formatString format)
  | default, format => if format.isEmpty then some .default else none
  | host f, format => f format

end FormatterRule

namespace Dialect

def formatter (d : Dialect) (site : Site) (format : String) : Except BindError Formatter :=
  match d.formatters.findSome? (·.accept? format) with
  | some f => .ok f
  | none => .error (.unresolved .formatter site format)

def quoted? (s : List Char) : Option (List Char) :=
  let isQuote := fun c => c == '"' || c == '\''
  match s with
  | c :: rest@(_ :: _) =>
    if isQuote c ∧ rest.getLast?.any isQuote then some rest.dropLast else none
  | _ => none

def argument (d : Dialect) (s : List Char) : Except BindError LookupArgument :=
  let s := Text.trim s
  match quoted? s with
  | some literal => .ok (.literal (String.ofList literal))
  | none =>
    let (name, format) := match Text.splitOnce [':'] s with
      | some (name, format) => (Text.trim name, some (String.ofList (Text.trim format)))
      | none => (s, none)
    if name = [] then .ok .skipped
    else
      match format with
      | none => .ok (.parameter (String.ofList name) none)
      | some format =>
        (d.formatter .argument format).map fun f => .parameter (String.ofList name) (some f)

def arguments (d : Dialect) : Option String → Except BindError (List LookupArgument)
  | none => .ok []
  | some s => (Text.splitOn ',' s.toList).mapM d.argument

/-- The key after an at sign; a second at sign names the parameter that holds it. -/
def lookupKey (s : List Char) : LookupKey :=
  match s with
  | '@' :: s =>
    let (name, suffix) := (Text.splitOnce ['+'] s).getD (s, [])
    .parameter (String.ofList (Text.trim name)) (String.ofList (Text.trim suffix))
  | s => .fixed (String.ofList (Text.trim s))

def lookup? (d : Dialect) (ref : Reference) : Except BindError (Option Evaluator) :=
  match ref.name.toList with
  | '@' :: s => (d.arguments ref.arguments).map fun args => some (.lookup (lookupKey s) args)
  | _ => .ok none

def property? (ref : Reference) : Option Evaluator :=
  match (Text.splitOn '.' ref.name.toList).map fun s => String.ofList (Text.trim s) with
  | base :: path@(_ :: _) => some (.property base path)
  | _ => none

def acceptEvaluator? (d : Dialect) (rule : EvaluatorRule) (ref : Reference) :
    Except BindError (Option Evaluator) :=
  match rule with
  | .lookup => d.lookup? ref
  | .property => .ok (property? ref)
  | .direct => .ok (some (.direct ref.name))
  | .host f => .ok (f ref)

def evaluatorFrom (d : Dialect) (site : Site) (ref : Reference) :
    List EvaluatorRule → Except BindError Evaluator
  | [] => .error (.unresolved .evaluator site ref.name)
  | rule :: rest => do
    match ← d.acceptEvaluator? rule ref with
    | some e => return e
    | none => evaluatorFrom d site ref rest

def evaluator (d : Dialect) (site : Site) (ref : Reference) : Except BindError Evaluator :=
  d.evaluatorFrom site ref d.evaluators

def acceptCondition? (rule : ConditionRule) (s : List Char) : Except BindError (Option Condition) :=
  let trimmed := Text.trim s
  match rule with
  | .takeAll => .ok (if Condition.isAlways trimmed then some .always else none)
  | .connective => .ok none
  | .stored => .ok (Condition.stored? trimmed)
  | .arithmetic => .ok ((Arithmetic.parse? s).map .arithmetic)
  | .interval =>
    match Range.parse? s with
    | .ok r => .ok (r.map .range)
    | .error _ => .error .overflow
  | .plural => .ok (Condition.plural? trimmed)
  | .valueList => .ok ((ValueList.parse? s).map .oneOf)
  | .host f => .ok (f (String.ofList s))

/-- A shorter text comes first, however many rules are to be tried on it. -/
theorem weight_lt {m n rules pending : Nat} (h : m < n) :
    m * (rules + 1) + rules < n * (rules + 1) + pending := by
  have hle := Nat.mul_le_mul_right (rules + 1) (Nat.succ_le_of_lt h)
  rw [Nat.succ_mul] at hle
  omega

/-- Tries rules on a spelling. The sides of a connective are resolved by all rules anew. -/
def conditionFrom (rules : List ConditionRule) (site : Site) (s : List Char)
    (pending : List ConditionRule) : Except BindError Condition :=
  match pending with
  | [] => .error (.unresolved .condition site (String.ofList s))
  | .connective :: pending =>
    match h : Connective.split? 0 (Connective.stripParentheses s) with
    | none => conditionFrom rules site s pending
    | some (left, connective, right) => do
      have := Connective.split?_length_lt h
      have := Connective.stripParentheses_length_le s
      have := Connective.stripParentheses_length_le left
      have := Connective.stripParentheses_length_le right
      let left ← conditionFrom rules .connective (Connective.stripParentheses left) rules
      let right ← conditionFrom rules .connective (Connective.stripParentheses right) rules
      return .connective left connective right
  | rule :: pending => do
    match ← acceptCondition? rule s with
    | some condition => return condition
    | none => conditionFrom rules site s pending
termination_by s.length * (rules.length + 1) + pending.length
decreasing_by
  · exact Nat.lt_succ_self _
  · exact weight_lt (by omega)
  · exact weight_lt (by omega)
  · exact Nat.lt_succ_self _

def condition (d : Dialect) (site : Site) (spelling : String) : Except BindError Condition :=
  conditionFrom d.conditions site spelling.toList d.conditions

def customPart (d : Dialect) (node : CustomNode) : Except BindError CustomPart :=
  match d.customParts.findSome? (· node) with
  | some part => .ok part
  | none => .error (.unresolved .customPart (.node node.kind) node.content)

def empty : Dialect := { parse := Expression.parse }

def withConditions (conditions : List ConditionRule) : Dialect :=
  { empty with
    evaluators := [.lookup, .property, .direct]
    formatters := [.roman, .letterCase, .formatString, .default]
    conditions }

def standard : Dialect :=
  withConditions
    [.takeAll, .connective, .stored, .arithmetic, .interval, .plural, .valueList]

/-- Without plural keywords, `one` or `few` is a value to compare with. -/
def withoutPlurals : Dialect :=
  withConditions [.takeAll, .connective, .stored, .arithmetic, .interval, .valueList]

def plainText : Dialect :=
  { standard with parse := fun s => .ok (Expression.ofText s), encodes := false }

end Dialect

end Phrasebook
