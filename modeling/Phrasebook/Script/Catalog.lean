import Phrasebook.Script.Basic
import Phrasebook.Script.Support

namespace Phrasebook

namespace Script

structure Entry where
  space : String
  key : String
  pattern : Compiled

structure Catalog where
  /-- The variable that holds the text manager. -/
  name : String
  /-- The namespace of entries that are keyed without one. -/
  space : String := ""
  language : Language := .invariant
  /-- Where stored conditions are found. -/
  lookup : Option Lookup := none
  /-- Whether the text manager encodes for HTML. -/
  encodes : Bool := true
  includesSupport : Bool := true
  entries : List Entry := []

structure CatalogError where
  space : String
  key : String
  source : CompileError
deriving DecidableEq, Repr

namespace CatalogError

def path (e : CatalogError) : String :=
  e.space ++ "/" ++ e.key

def message (e : CatalogError) : String :=
  "failed to compile pattern '" ++ e.path ++ "'"

end CatalogError

namespace Catalog

def insert (c : Catalog) (space key : String) (pattern : Compiled) : Catalog :=
  { c with entries := c.entries ++ [⟨space, key, pattern⟩] }

def compile (c : Catalog) (d : Dialect) (space key pattern : String) :
    Except CatalogError Catalog :=
  match d.compile pattern with
  | .ok compiled => .ok (c.insert space key compiled)
  | .error source => .error ⟨space, key, source⟩

def qualifiedKey (c : Catalog) (space key : String) : String :=
  if space = c.space then key else space ++ String.ofList Condition.spaceMark ++ key

/-- The property that holds an entry. Its first digit tells functions from texts. -/
def property (c : Catalog) (entry : Entry) : String :=
  (if isPlain entry.pattern.bound then "0" else "1") ++ c.qualifiedKey entry.space entry.key

def scope (c : Catalog) (entry : Entry) : Scope :=
  ⟨entry.space, c.language, c.lookup⟩

def cultureCode (c : Catalog) : Code :=
  let name := if c.language.isInvariant then "" else c.language.tag.text
  let culture := c.language.culture
  let field := fun (name value : String) => Code.literal name ++ .word ":" ++ .literal value
  .braces (.separated ","
    [field "name" name, field "decimal" culture.decimalSeparator,
     field "group" culture.groupSeparator])

def addAll {α : Type} [BEq α] (xs ys : List α) : List α :=
  ys.foldl (fun xs y => addOnce y xs) xs

def findings (c : Catalog) (r : Registry) : Findings :=
  c.entries.foldl (fun all entry =>
    let found := Script.findings r (c.scope entry) entry.pattern.bound
    ⟨addAll all.used found.used, addAll all.missing found.missing⟩) {}

def stops (c : Catalog) (r : Registry) : Bool :=
  c.entries.any fun entry => Script.stops r (c.scope entry) entry.pattern.bound

def entryText (c : Catalog) (r : Registry) (entry : Entry) : String :=
  let script := generate r (c.scope entry) entry.pattern.bound
  Text.literal (c.property entry) ++ ":" ++ script.source

def text (c : Catalog) (r : Registry) : String :=
  (if c.includesSupport then support else "") ++
    "var " ++ c.name ++ "=new Glot.TextManager(" ++ Text.literal c.space ++ "," ++
    c.cultureCode.text ++ "," ++ (if c.encodes then "true" else "false") ++
    ",function(" ++ supportNames ++ ")\x7b\n" ++ r.helpers (c.findings r).used ++
    "return \x7b\n" ++ Text.joined ",\n" (c.entries.map (c.entryText r)) ++ "\n\x7d;\n\x7d);\n"

end Catalog

end Script

end Phrasebook
