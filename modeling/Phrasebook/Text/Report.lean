import Phrasebook.Text.Literal
import Phrasebook.Text.Pieces

namespace Phrasebook

/-- Structured output. Fields keep their order. -/
inductive Report where
  | number (n : Nat)
  | string (s : String)
  | array (items : List Report)
  | object (fields : List (String × Report))

namespace Report

instance : Inhabited Report := ⟨number 0⟩

def newLine (level : Nat) : String :=
  "\n" ++ String.ofList (List.replicate (2 * level) ' ')

def block (opening closing : String) (level : Nat) : List String → String
  | [] => opening ++ closing
  | lines =>
    opening ++ newLine (level + 1) ++ Text.joined ("," ++ newLine (level + 1)) lines ++
      newLine level ++ closing

mutual

def pretty (level : Nat) : Report → String
  | number n => toString n
  | string s => Text.literal s
  | array items => block "[" "]" level (prettyItems (level + 1) items)
  | object fields => block "\x7b" "\x7d" level (prettyFields (level + 1) fields)

def prettyItems (level : Nat) : List Report → List String
  | [] => []
  | item :: rest => pretty level item :: prettyItems level rest

def prettyFields (level : Nat) : List (String × Report) → List String
  | [] => []
  | (name, value) :: rest =>
    (Text.literal name ++ ": " ++ pretty level value) :: prettyFields level rest

end

def text (r : Report) : String := r.pretty 0

end Report

end Phrasebook
