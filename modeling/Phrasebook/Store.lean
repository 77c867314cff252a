import Phrasebook.Language.Basic

namespace Phrasebook

/-- A place for a pattern; the empty tag is that of no particular language. -/
structure Slot where
  space : String
  key : String
  tag : String
deriving DecidableEq, Repr

structure Store where
  entries : List (Slot × String) := []

namespace Slot

def before (s t : Slot) : Bool :=
  s.space < t.space ||
    (s.space == t.space && (s.key < t.key || (s.key == t.key && s.tag < t.tag)))

end Slot

namespace Store

def empty : Store := {}

def put (slot : Slot) (pattern : String) : List (Slot × String) → List (Slot × String)
  | [] => [(slot, pattern)]
  | (s, p) :: rest =>
    if slot = s then (slot, pattern) :: rest
    else if slot.before s then (slot, pattern) :: (s, p) :: rest
    else (s, p) :: put slot pattern rest

def insert (store : Store) (space key tag pattern : String) : Store :=
  ⟨put ⟨space, key, tag⟩ pattern store.entries⟩

def get? (store : Store) (space key tag : String) : Option String :=
  (store.entries.find? fun (slot, _) => slot = ⟨space, key, tag⟩).map Prod.snd

def size (store : Store) : Nat := store.entries.length

def dropRepeats : List String → List String
  | [] => []
  | [key] => [key]
  | key :: next :: rest =>
    if key = next then dropRepeats (next :: rest) else key :: dropRepeats (next :: rest)

def keys (store : Store) (space : String) : List String :=
  dropRepeats
    ((store.entries.filter fun (slot, _) => slot.space = space).map fun (slot, _) => slot.key)

/-- The pattern of the first tag on a language's chain that has one, or that of no language. -/
def find? (store : Store) (space key : String) (language : Language) : Option String :=
  (language.chain ++ [""]).findSome? fun tag => store.get? space key tag

end Store

end Phrasebook
