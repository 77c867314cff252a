import Phrasebook.Decimal.Reading
import Phrasebook.Text.Blank

namespace Phrasebook

inductive ValueSet where
  | numbers (values : List Float)
  | strings (values : List String)

structure ValueList where
  values : ValueSet
  negated : Bool

namespace ValueList

def sign : List Char → Bool × List Char
  | '!' :: '=' :: s => (true, s)
  | '=' :: s => (false, s)
  | s => (false, s)

def labels (s : List Char) : List (List Char) :=
  ((Text.splitOn ',' s).map Text.trim).filter (· ≠ [])

/-- Values between commas, as numbers if all of them are. -/
def parse? (s : List Char) : Option ValueList :=
  let (negated, list) := sign (Text.trim s)
  match labels list with
  | [] => none
  | labels =>
    match labels.mapM readFloat? with
    | some numbers => some ⟨.numbers numbers, negated⟩
    | none => some ⟨.strings (labels.map String.ofList), negated⟩

end ValueList

end Phrasebook
