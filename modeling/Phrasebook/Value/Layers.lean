import Phrasebook.Value.Basic

namespace Phrasebook

/-- Parameters by name. Letter case does not count in names. -/
structure ParameterSet where
  entries : List (String × Parameter) := []

namespace ParameterSet

def put (key : String) (p : Parameter) : List (String × Parameter) → List (String × Parameter)
  | [] => [(key, p)]
  | (k, q) :: rest => if k = key then (key, p) :: rest else (k, q) :: put key p rest

def find? (key : String) : List (String × Parameter) → Option Parameter
  | [] => none
  | (k, p) :: rest => if k = key then some p else find? key rest

def empty : ParameterSet := {}

def set (s : ParameterSet) (name : String) (p : Parameter) : ParameterSet :=
  ⟨put (Text.lowered name) p s.entries⟩

def get? (s : ParameterSet) (name : String) : Option Parameter :=
  find? (Text.lowered name) s.entries

def contains (s : ParameterSet) (name : String) : Bool :=
  (s.get? name).isSome

def size (s : ParameterSet) : Nat := s.entries.length

def sorted (names : List String) : List String :=
  (names.mergeSort (· ≤ ·)).eraseDups

def names (s : ParameterSet) : List String :=
  sorted (s.entries.map Prod.fst)

def ofList (entries : List (String × Parameter)) : ParameterSet :=
  entries.foldl (fun s (name, p) => s.set name p) empty

end ParameterSet

abbrev Layers := List ParameterSet

namespace Layers

/-- The first value under a name that is not null, from the top layer down. -/
def get? (layers : Layers) (name : String) : Option Parameter :=
  layers.findSome? fun layer => (layer.get? name).filter fun p => !p.isNull

def push (layers : Layers) : Layers := .empty :: layers

def pop (layers : Layers) : Layers := layers.tail

def set (layers : Layers) (name : String) (p : Parameter) : Layers :=
  match layers with
  | [] => [ParameterSet.empty.set name p]
  | top :: rest => top.set name p :: rest

def names (layers : Layers) : List String :=
  ParameterSet.sorted (layers.flatMap fun layer => layer.entries.map Prod.fst)

end Layers

end Phrasebook
