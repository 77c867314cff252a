import Phrasebook.Script.Part

namespace Phrasebook

namespace Script

open Code

/-- What stands for a pattern that has strategies without generators: their names as a text. -/
def placeholder (missing : List StrategyKind) : Code :=
  concatenation (missing.map fun kind => literal (kind.missingText ++ "\n"))

def isPlain (e : BoundExpression) : Bool :=
  e.isEmpty || (BoundExpression.text? e).isSome

/-- A string literal for plain text, else a function of the parameters. -/
def entryCode (r : Registry) (s : Scope) (e : BoundExpression) (missing : List StrategyKind) :
    Code :=
  match e with
  | [] => literal ""
  | [.text content] => literal content
  | e => returning "c" (if missing.isEmpty then partsCode r s e else placeholder missing)

end Script

structure Script where
  source : String
  /-- Functions that the code calls. -/
  helpers : String
  missing : List Script.StrategyKind

namespace Script

def isComplete (script : Script) : Bool :=
  script.missing.isEmpty

def generate (r : Registry) (s : Scope) (e : BoundExpression) : Script :=
  let found := findings r s e
  ⟨(entryCode r s e found.missing).text, r.helpers found.used, found.missing⟩

end Script

end Phrasebook
