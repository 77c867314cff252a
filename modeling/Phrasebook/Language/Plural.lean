import Phrasebook.Text.Pieces

namespace Phrasebook

inductive PluralCategory where
  | zero
  | one
  | two
  | few
  | many
  | other
deriving DecidableEq, Repr

namespace PluralCategory

def name : PluralCategory → String
  | zero => "zero"
  | one => "one"
  | two => "two"
  | few => "few"
  | many => "many"
  | other => "other"

def between (low n high : Nat) : Bool :=
  low ≤ n && n ≤ high

/-- Round millions take their own category in some Romance languages. -/
def manyIfMillions (n : Nat) : PluralCategory :=
  if n ≠ 0 ∧ n % 1000000 = 0 then many else other

def onlyOne (n : Nat) : PluralCategory :=
  if n = 1 then one else other

def arabic (n : Nat) : PluralCategory :=
  if n = 0 then zero
  else if n = 1 then one
  else if n = 2 then two
  else if between 3 (n % 100) 10 then few
  else if between 11 (n % 100) 99 then many
  else other

def czech (n : Nat) : PluralCategory :=
  if n = 1 then one else if between 2 n 4 then few else other

def isFew (n : Nat) : Bool :=
  between 2 (n % 10) 4 && !between 12 (n % 100) 14

def polish (n : Nat) : PluralCategory :=
  if n = 1 then one else if isFew n then few else many

def eastSlavic (n : Nat) : PluralCategory :=
  if n % 10 = 1 ∧ n % 100 ≠ 11 then one else if isFew n then few else many

def ofMagnitude (language : String) (n : Nat) : PluralCategory :=
  match language with
  | "ar" => arabic n
  | "cs" => czech n
  | "pl" => polish n
  | "ru" | "uk" => eastSlavic n
  | "ja" => other
  | "es" | "it" => if n = 1 then one else manyIfMillions n
  | "fr" | "pt" => if n ≤ 1 then one else manyIfMillions n
  | _ => onlyOne n

def of (language : String) (n : Int) : PluralCategory :=
  ofMagnitude (String.ofList (Text.lowerAscii language.toList)) n.natAbs

end PluralCategory

end Phrasebook
