import Phrasebook.Dialect.Error
import Phrasebook.Text.Pieces

namespace Phrasebook

inductive Call where
  | stored (space key : String)
  | named (name : String)
deriving DecidableEq, Repr

def Call.name : Call → String
  | .stored space key => space ++ "/" ++ key
  | .named name => name

inductive EvalError where
  | unresolvedLookup (space key : String) (suggestions : List String)
  | unresolvedCondition (spelling : String)
  /-- The calls in progress, outermost first, and the one that is already among them. -/
  | cyclicReference (chain : List Call)
  | maxDepthExceeded (depth : Nat)
  | unknownProperty (property kind : String)
  | compile (key : String) (source : CompileError)
  | bind (e : BindError)
  | write
deriving DecidableEq, Repr

namespace EvalError

/-- Whether the program stopped, and no error is returned. -/
def aborts : EvalError → Bool
  | compile _ source => source.aborts
  | bind e => e = .overflow
  | _ => false

def suggestionText : List String → String
  | [] => ""
  | suggestions => "; did you mean: " ++ Text.joined ", " suggestions ++ "?"

def message : EvalError → String
  | unresolvedLookup space key suggestions =>
    "pattern '" ++ key ++ "' not found in namespace '" ++ space ++ "'" ++
      suggestionText suggestions
  | unresolvedCondition spelling => "condition '" ++ spelling ++ "' could not be resolved"
  | cyclicReference chain =>
    "cyclic reference detected: " ++ Text.joined " -> " (chain.map Call.name)
  | maxDepthExceeded depth => "maximum recursion depth of " ++ toString depth ++ " exceeded"
  | unknownProperty property kind => kind ++ " value has no property '" ++ property ++ "'"
  | compile key source => "failed to compile '" ++ key ++ "': " ++ source.message
  | bind e => e.message
  | write => "failed to write output"

end EvalError

end Phrasebook
