import Phrasebook.Pattern.Position

namespace Phrasebook

inductive Role where
  | evaluator
  | formatter
  | condition
  | customPart
deriving DecidableEq, Repr

inductive Site where
  | parameter
  | switch
  | group
  | switchCase
  | templatedSwitch
  | connective
  | argument
  | node (kind : String)
deriving DecidableEq, Repr

inductive BindError where
  /-- No rule of the dialect accepts a text in some role. -/
  | unresolved (role : Role) (site : Site) (representation : String)
  /-- The program stops in reading a text. -/
  | overflow
deriving DecidableEq, Repr

inductive CompileError where
  | syntaxError (e : SyntaxError)
  | bindError (e : BindError)
deriving DecidableEq, Repr

def Role.name : Role → String
  | .evaluator => "evaluator"
  | .formatter => "formatter"
  | .condition => "condition"
  | .customPart => "custom part"

def Site.name : Site → String
  | .parameter => "parameter"
  | .switch => "switch"
  | .group => "format group"
  | .switchCase => "switch case"
  | .templatedSwitch => "templated switch"
  | .connective => "boolean condition"
  | .argument => "lookup argument"
  | .node kind => kind

def BindError.representation : BindError → String
  | .unresolved _ _ representation => representation
  | .overflow => ""

def BindError.message : BindError → String
  | .unresolved role site representation =>
    "no " ++ role.name ++ " accepts '" ++ representation ++ "' in " ++ site.name
  | .overflow => "duration out of range"

def CompileError.message : CompileError → String
  | .syntaxError e => e.message
  | .bindError e => e.message

def CompileError.aborts : CompileError → Bool
  | .bindError .overflow => true
  | _ => false

end Phrasebook
