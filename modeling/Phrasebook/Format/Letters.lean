import Phrasebook.Text.Cluster
import Phrasebook.Text.Pieces

namespace Phrasebook

inductive LetterCase where
  | lower
  | upper
  | capitalizeFirst
  | capitalizeAll
deriving DecidableEq, Repr

namespace LetterCase

def name : LetterCase → String
  | lower => "lower"
  | upper => "upper"
  | capitalizeFirst => "capitalize-first"
  | capitalizeAll => "capitalize-all"

def ofToken? (token : String) : Option LetterCase :=
  match String.ofList (Text.lowerAscii token.toList) with
  | "lc" | "lowercase" => some lower
  | "uc" | "uppercase" => some upper
  | "cf" | "capitalize-first" => some capitalizeFirst
  | "ca" | "capitalize-all" => some capitalizeAll
  | _ => none

def capitalizeWords (casing : Text.Casing) (s : List Char) : List Char :=
  (((Text.splitOn ' ' s).map (Text.capitalized casing)).intersperse [' ']).flatten

def apply (mode : LetterCase) (language text : String) : String :=
  let casing := Text.Casing.of language
  let s := text.toList
  String.ofList <|
    match mode with
    | lower => Text.lower casing s
    | upper => Text.upper casing s
    | capitalizeFirst => Text.capitalized casing s
    | capitalizeAll => capitalizeWords casing s

end LetterCase

end Phrasebook
