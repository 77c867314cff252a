import Phrasebook.Calendar.SpanReader
import Phrasebook.Decimal.Reading
import Phrasebook.Text.Pieces

namespace Phrasebook

structure Interval (α : Type) where
  min : Option α
  max : Option α
  minInclusive : Bool
  maxInclusive : Bool
deriving DecidableEq, Repr

inductive Range where
  | numbers (interval : Interval Float)
  | spans (interval : Interval Span)

namespace Interval

variable {α β : Type}

def contains (i : Interval α) (lt eq : α → α → Bool) (x : α) : Bool :=
  (i.min.all fun low => lt low x || (i.minInclusive && eq low x)) &&
    i.max.all fun high => lt x high || (i.maxInclusive && eq x high)

def mapBound? (f : α → Option β) : Option α → Option (Option β)
  | none => some none
  | some x => (f x).map some

def map? (i : Interval α) (f : α → Option β) : Option (Interval β) :=
  (mapBound? f i.min).bind fun min =>
    (mapBound? f i.max).map fun max => ⟨min, max, i.minInclusive, i.maxInclusive⟩

end Interval

namespace Range

def isBracket (c : Char) : Bool :=
  c == '[' || c == ']' || c == '(' || c == ')'

def bound (s : List Char) : Option (List Char) :=
  if Text.trim s = [] then none else some (Text.trim s)

/-- Two bounds between brackets. Only a bracket that faces the bounds includes them. -/
def bracketed? (s : List Char) : Option (Interval (List Char)) :=
  match Text.trim s with
  | [] => none
  | opening :: rest =>
    match Text.splitOnce [','] rest, rest.getLast? with
    | some (low, tail), some closing =>
      let high := tail.dropLast
      if isBracket opening ∧ isBracket closing ∧ tail ≠ [] ∧
          high.all (fun c => c != ',' && !isBracket c) then
        some ⟨bound low, bound high, opening == '[', closing == ']'⟩
      else none
    | _, _ => none

/-- One bound after a comparison sign. The bound is written on one line. -/
def half? (s : List Char) : Option (Interval (List Char)) :=
  match Text.trim s with
  | [] => none
  | sign :: rest =>
    let (inclusive, rest) := match rest with
      | '=' :: rest => (true, rest)
      | rest => (false, rest)
    let limit := Text.trim rest
    if limit = [] ∨ '\n' ∈ limit then none
    else if sign = '>' then some ⟨some limit, none, inclusive, inclusive⟩
    else if sign = '<' then some ⟨none, some limit, inclusive, inclusive⟩
    else none

def spanBound (s : List Char) : Except Overflow (Option Span) :=
  Span.read (String.ofList s)

def optionalSpan : Option (List Char) → Except Overflow (Option (Option Span))
  | none => .ok (some none)
  | some s => (spanBound s).map (·.map some)

/-- Both bounds as durations, if both can be read as such. The lower one is read first, and where it is no
duration the other one is not read. -/
def spans? (bounds : Interval (List Char)) : Except Overflow (Option (Interval Span)) :=
  if bounds.min.isNone && bounds.max.isNone then .ok none
  else do
    match ← optionalSpan bounds.min with
    | none => return none
    | some min =>
      let max ← optionalSpan bounds.max
      return max.map fun max => ⟨min, max, bounds.minInclusive, bounds.maxInclusive⟩

/-- Bounds are durations if all of them can be read as such, else numbers. -/
def ofBounds? (bounds : Interval (List Char)) : Except Overflow (Option Range) := do
  match ← spans? bounds with
  | some interval => return some (.spans interval)
  | none => return (bounds.map? readFloat?).map numbers

def bounds? (s : List Char) : Option (Interval (List Char)) :=
  bracketed? s <|> half? s

def parse? (s : List Char) : Except Overflow (Option Range) :=
  match bounds? s with
  | some bounds => ofBounds? bounds
  | none => .ok none

end Range

end Phrasebook
