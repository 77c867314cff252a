import Phrasebook.Command.Arguments
import Phrasebook.Dialect.Basic
import Phrasebook.Evaluation.Evaluator

namespace Phrasebook

structure PatternOptions where
  language : Option String := none
  zone : Option String := none
  plainText : Bool := false
  html : Bool := false
  /-- Keys and the patterns stored under them. -/
  definitions : List (String × String) := []

inductive Command where
  | eval (pattern : String) (parameters : List (String × String)) (options : PatternOptions)
      (json : Bool)
  | check (patterns : List String) (withDefinitions : Bool) (options : PatternOptions)
      (json : Bool)
  | print (pattern : String) (json : Bool)
  | explain (pattern : String) (options : PatternOptions) (json : Bool)
  | script (options : PatternOptions) (name space : String) (includesSupport encodes : Bool)
      (strict json : Bool)

namespace Command

open Arguments

def assignment? (s : String) : Option (String × String) :=
  (Text.splitOnce ['='] s.toList).map fun (name, value) =>
    (String.ofList (Text.trim name), String.ofList value)

def assignments : Arity := .values fun s => (assignment? s).isSome

def helpOption : OptionSpec := ⟨"help", some 'h', .help⟩
def jsonOption : OptionSpec := ⟨"json", none, .flag⟩

def patternOptions : List OptionSpec :=
  [⟨"lang", none, .value⟩, ⟨"tz", none, .value⟩, ⟨"text", none, .flag⟩, ⟨"html", none, .flag⟩,
   ⟨"define", some 'd', assignments⟩]

def grammar (more : List OptionSpec) (mostOperands : Option Nat) (needsOperand : Bool) : Grammar :=
  ⟨helpOption :: jsonOption :: more ++ patternOptions, mostOperands, needsOperand,
    [("text", "html")]⟩

def evalGrammar : Grammar := grammar [⟨"param", some 'p', assignments⟩] (some 1) true
def checkGrammar : Grammar := grammar [⟨"definitions", none, .flag⟩] none true
def explainGrammar : Grammar := grammar [] (some 1) true
def printGrammar : Grammar := ⟨[helpOption, jsonOption], some 1, true, []⟩

def scriptGrammar : Grammar :=
  grammar
    [⟨"name", none, .value⟩, ⟨"namespace", none, .value⟩, ⟨"no-runtime", none, .flag⟩,
     ⟨"no-encode", none, .flag⟩, ⟨"strict", none, .flag⟩] (some 0) false

def optionsOf (g : Given) : PatternOptions where
  language := g.value? "lang"
  zone := g.value? "tz"
  plainText := g.has "text"
  html := g.has "html"
  definitions := (g.values "define").filterMap assignment?

def firstOperand (g : Given) : String :=
  g.operands.headD ""

def readEval (words : List String) : Except UsageError Command :=
  (read evalGrammar words).map fun g =>
    eval (firstOperand g) ((g.values "param").filterMap assignment?) (optionsOf g) (g.has "json")

def readCheck (words : List String) : Except UsageError Command :=
  (read checkGrammar words).map fun g =>
    check g.operands (g.has "definitions") (optionsOf g) (g.has "json")

def readPrint (words : List String) : Except UsageError Command :=
  (read printGrammar words).map fun g => print (firstOperand g) (g.has "json")

def readExplain (words : List String) : Except UsageError Command :=
  (read explainGrammar words).map fun g =>
    explain (firstOperand g) (optionsOf g) (g.has "json")

def readScript (words : List String) : Except UsageError Command :=
  (read scriptGrammar words).map fun g =>
    script (optionsOf g) ((g.value? "name").getD "texts") ((g.value? "namespace").getD "")
      (!g.has "no-runtime") (!g.has "no-encode") (g.has "strict") (g.has "json")

def reader? : String → Option (List String → Except UsageError Command)
  | "eval" => some readEval
  | "check" => some readCheck
  | "print" => some readPrint
  | "explain" => some readExplain
  | "script" => some readScript
  | _ => none

def help : List String → UsageError
  | [] => .help
  | [name] => if (reader? name).isSome || name == "help" then .help else .unknownCommand
  | _ => .unknownCommand

def programOption (s : String) : UsageError :=
  match s.toList with
  | '-' :: 'h' :: _ => .help
  | '-' :: 'V' :: _ => .version
  | _ => if s = "--help" then .help else if s = "--version" then .version else .unknownArgument

def isOption (s : String) : Bool :=
  match s.toList with
  | '-' :: _ :: _ => true
  | _ => false

def parse : List String → Except UsageError Command
  | [] => .error .missingCommand
  | "--" :: rest =>
    match rest with
    | [] => .error .missingCommand
    | name :: _ =>
      .error (if (reader? name).isSome || name == "help" then .unknownArgument else .unknownCommand)
  | name :: rest =>
    match reader? name with
    | some readWords => readWords rest
    | none =>
      if name = "help" then .error (help rest)
      else if isOption name then .error (programOption name)
      else .error .unknownCommand

end Command

end Phrasebook
