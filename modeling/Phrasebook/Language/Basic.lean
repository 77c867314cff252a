import Phrasebook.Language.Tag
import Phrasebook.Language.Culture

namespace Phrasebook

inductive Language where
  | mk (tag : Tag) (fallbacks : List Language)

namespace Language

def tag : Language → Tag
  | mk tag _ => tag

def fallbacks : Language → List Language
  | mk _ fallbacks => fallbacks

def invariant : Language := mk .unknown []

instance : Inhabited Language := ⟨invariant⟩

def parse? (text : String) : Option Language :=
  (Tag.parse? text).map fun tag => mk tag []

def withFallback (l fallback : Language) : Language :=
  mk l.tag (l.fallbacks ++ [fallback])

def isInvariant (l : Language) : Bool :=
  l.tag = .unknown

/-- A tag, and its bare language if it has a script or region. -/
def ownTags (t : Tag) : List String :=
  if t.region.isSome ∨ t.script.isSome then [t.text, t.language] else [t.text]

def addNew (chain : List String) (tag : String) : List String :=
  if tag ∈ chain then chain else chain ++ [tag]

mutual

def chain : Language → List String
  | mk tag fallbacks => (chainAll fallbacks).foldl addNew (ownTags tag)

def chainAll : List Language → List String
  | [] => []
  | l :: rest => chain l ++ chainAll rest

end

def culture (l : Language) : Culture :=
  (l.chain.findSome? fun tag =>
    (Culture.known.find? fun (code, _) => Text.equalIgnoringCase code.toList tag.toList).map
      Prod.snd).getD .invariant

end Language

end Phrasebook
