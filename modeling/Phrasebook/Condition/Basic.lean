import Phrasebook.Condition.Arithmetic
import Phrasebook.Condition.Connective
import Phrasebook.Condition.Interval
import Phrasebook.Condition.ValueList
import Phrasebook.Evaluation.Scene
import Phrasebook.Language.Plural

namespace Phrasebook

structure HostCondition where
  kind : String
  test : Parameter → Scene → Except EvalError Bool

inductive Condition where
  | always
  | connective (left : Condition) (connective : Connective) (right : Condition)
  /-- The text stored under a key is itself the spelling of a condition. -/
  | stored (space : Option String) (key : String)
  | arithmetic (a : Arithmetic)
  | range (r : Range)
  | plural (category : PluralCategory)
  | oneOf (values : ValueList)
  | host (condition : HostCondition)

namespace Condition

instance : Inhabited Condition := ⟨always⟩

def kind : Condition → String
  | always => "TakeAllCondition"
  | connective _ _ _ => "BooleanCondition"
  | stored _ _ => "LookupCondition"
  | arithmetic _ => "ArithmeticCondition"
  | range _ => "IntervalCondition"
  | plural _ => "PluralCondition"
  | oneOf _ => "ValueListCondition"
  | host c => c.kind

def spaceMark : List Char := ['_', '_']

def storedSpelling (space : Option String) (key : String) : String :=
  match space with
  | some space => "@" ++ space ++ String.ofList spaceMark ++ key
  | none => "@" ++ key

def isAlways (s : List Char) : Bool :=
  s == [] || Text.equalIgnoringCase s "true".toList || Text.equalIgnoringCase s "other".toList

/-- A key after an at sign, with or without a namespace. A second at sign is none of its. -/
def stored? : List Char → Option Condition
  | '@' :: key =>
    if key = [] ∨ key.head? = some '@' then none
    else
      match Text.splitOnce spaceMark key with
      | some (space, key) => some (stored (some (String.ofList space)) (String.ofList key))
      | none => some (stored none (String.ofList key))
  | _ => none

def plural? (s : List Char) : Option Condition :=
  ([PluralCategory.zero, .one, .two, .few, .many].find? fun category =>
    category.name.toList == Text.lowerAscii s).map plural

end Condition

namespace ValueSet

def holds (values : ValueSet) (value : Value) : Option Bool :=
  match values with
  | numbers values => value.number?.map fun x => values.any (· == x)
  | strings values => some (values.contains value.invariantText)

end ValueSet

/-- What is no number is neither in a list of numbers nor outside it. -/
def ValueList.test (l : ValueList) (value : Value) : Bool :=
  (l.values.holds value).any fun found => found != l.negated

def Range.test (r : Range) (value : Value) : Bool :=
  match r with
  | numbers i => value.number?.any (i.contains (fun x y => x < y) (fun x y => x == y))
  | spans i =>
    value.span?.any
      (i.contains (fun x y => x.nanoseconds < y.nanoseconds) (fun x y => x == y))

def Arithmetic.test (a : Arithmetic) (value : Value) : Bool :=
  (value.number?.bind a.test?).getD false

/-- Whole numbers belong to the category; other values spell its name. -/
def PluralCategory.test (category : PluralCategory) (language : String) (value : Value) : Bool :=
  match value with
  | .integer n => of language n.toInt = category
  | .float x => Value.isWhole x && of language x.toInt64.toInt = category
  | value => Text.equalIgnoringCase (Text.trim value.invariantText.toList) category.name.toList

end Phrasebook
