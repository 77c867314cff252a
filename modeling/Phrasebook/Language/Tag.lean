import Phrasebook.Text.Pieces

namespace Phrasebook

/-- A language identifier in canonical letter case; the variants are sorted. -/
structure Tag where
  language : String
  script : Option String := none
  region : Option String := none
  variants : List String := []
deriving DecidableEq, Repr

namespace Tag

def isLetter (c : Char) : Bool := c.isAlpha

def language? (s : List Char) : Option String :=
  if (s.length = 2 ∨ s.length = 3) ∧ s.all isLetter then
    some (String.ofList (Text.lowerAscii s))
  else none

def script? : List Char → Option String
  | c :: s =>
    if s.length = 3 ∧ (c :: s).all isLetter then
      some (String.ofList (c.toUpper :: Text.lowerAscii s))
    else none
  | [] => none

def region? (s : List Char) : Option String :=
  if (s.length = 2 ∧ s.all isLetter) ∨ (s.length = 3 ∧ s.all Char.isDigit) then
    some (String.ofList (s.map Char.toUpper))
  else none

def variant? (s : List Char) : Option String :=
  if ((5 ≤ s.length ∧ s.length ≤ 8) ∨ (s.length = 4 ∧ s.head?.any Char.isDigit)) ∧
      s.all Char.isAlphanum then
    some (String.ofList (Text.lowerAscii s))
  else none

/-- Puts a variant in its place; one that is already there makes the tag invalid. -/
def insertVariant (v : String) : List String → Option (List String)
  | [] => some [v]
  | w :: rest =>
    if v = w then none
    else if v < w then some (v :: w :: rest)
    else (insertVariant v rest).map (w :: ·)

def variants? : List String → List (List Char) → Option (List String)
  | known, [] => some known
  | known, s :: rest =>
    ((variant? s).bind fun v => insertVariant v known).bind fun known => variants? known rest

def optionally (read : List Char → Option String) :
    List (List Char) → Option String × List (List Char)
  | [] => (none, [])
  | s :: rest =>
    match read s with
    | some subtag => (some subtag, rest)
    | none => (none, s :: rest)

def parse? (text : String) : Option Tag :=
  match Text.splitOn '-' text.toList with
  | [] => none
  | s :: subtags =>
    (language? s).bind fun language =>
      let (script, subtags) := optionally script? subtags
      let (region, subtags) := optionally region? subtags
      (variants? [] subtags).map fun variants => ⟨language, script, region, variants⟩

def text (t : Tag) : String :=
  Text.joined "-" (t.language :: t.script.toList ++ t.region.toList ++ t.variants)

def unknown : Tag := { language := "und" }

end Tag

end Phrasebook
