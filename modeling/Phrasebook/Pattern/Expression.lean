namespace Phrasebook

/-- A parameter as a pattern names it; an empty format is no format. -/
structure Reference where
  name : String
  format : String := ""
  arguments : Option String := none
deriving DecidableEq, Repr, Inhabited

structure CustomNode where
  kind : String
  content : String
deriving DecidableEq, Repr

mutual

inductive Part where
  | text (content : String)
  | reference (ref : Reference)
  | switch (subject : Reference) (template : Option String) (cases : List Case)
      (nullCase : Option NullCase)
  | group (name : String) (body : Option (List Part))
  | custom (node : CustomNode)

structure Case where
  condition : Option (List Part)
  body : List Part

/-- The branch for an absent value, and the number of cases written before it. -/
structure NullCase where
  position : Nat
  body : List Part

end

instance : Inhabited Part := ⟨.text ""⟩

abbrev Expression := List Part

namespace Expression

def ofText (s : String) : Expression :=
  [.text s]

def text? : Expression → Option String
  | [.text s] => some s
  | _ => none

def isText (e : Expression) : Bool :=
  e.all fun
    | .text _ => true
    | _ => false

end Expression

end Phrasebook
