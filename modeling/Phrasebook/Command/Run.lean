import Phrasebook.Calendar.MomentReader
import Phrasebook.Command.Basic
import Phrasebook.Command.Explain
import Phrasebook.Command.Tree
import Phrasebook.Engine
import Phrasebook.Script.Catalog
import Phrasebook.Value.Reader

namespace Phrasebook

inductive Output where
  | none
  | text (s : String)
  | report (r : Report)

/-- How a command ends: it cannot be run at all, or it is, with or without an error in its data, or the
program stops after some output. -/
inductive Outcome where
  | misused (e : UsageError)
  | failed (message : String)
  | finished (ok : Bool) (output : Output)
  | aborted (output : Output)

def Output.written : Output → String
  | none => ""
  | text s => s
  | report r => r.text ++ "\n"

structure Diagnosis where
  message : String
  offset : Nat
  length : Nat
deriving DecidableEq, Repr

namespace Diagnosis

/-- A binding error is where its text first is, if there is one, else the whole pattern. -/
def ofBindError (pattern : String) (e : BindError) : Diagnosis :=
  match e.representation.isEmpty, Text.splitOnce e.representation.toList pattern.toList with
  | false, some (before, _) =>
    ⟨e.message, (String.ofList before).utf8ByteSize, e.representation.utf8ByteSize⟩
  | _, _ => ⟨e.message, 0, pattern.utf8ByteSize⟩

def of (pattern : String) : CompileError → Diagnosis
  | .syntaxError e =>
    ⟨"syntax error in " ++ e.construct.name ++ ": " ++ e.fault.message,
      min e.position.offset pattern.utf8ByteSize, 1⟩
  | .bindError e => ofBindError pattern e

def report (d : Diagnosis) : Report :=
  .object [("error", .string d.message), ("offset", .number d.offset), ("length", .number d.length)]

end Diagnosis

namespace PatternOptions

def dialect (o : PatternOptions) : Dialect :=
  if o.plainText then .plainText
  else if o.html then { Dialect.standard with transformer := some .htmlTags }
  else .standard

def store (o : PatternOptions) : Store :=
  o.definitions.foldl (fun store (name, pattern) =>
    let (space, key) := Evaluator.splitKey "" name
    store.insert space key "" pattern) .empty

def languageOf (o : PatternOptions) : Except String Language :=
  match o.language with
  | none => .ok .invariant
  | some tag =>
    match Language.parse? tag with
    | some language => .ok language
    | none => .error ("invalid language tag '" ++ tag ++ "'")

def zoneOf (o : PatternOptions) : Except String Int :=
  match o.zone with
  | none => .ok 0
  | some zone =>
    (Offset.parse zone).mapError fun e => "invalid time zone '" ++ zone ++ "': " ++ e.message

def engine (o : PatternOptions) : Except String Engine := do
  let language ← o.languageOf
  let zone ← o.zoneOf
  return {
    dialect := o.dialect, store := o.store, language, zone
    encoder := if o.html then .html else .identity }

end PatternOptions

namespace Command

def line (s : String) : Output := .text (s ++ "\n")

def readParameters (zone : Int) (parameters : List (String × String)) : Except Overflow ParameterSet :=
  parameters.foldlM (fun set (name, text) => do
    let value ← Value.read zone text.toList
    return set.set name (.plain value)) .empty

def runEval (pattern : String) (parameters : List (String × String)) (o : PatternOptions)
    (json : Bool) : Except String Outcome := do
  let engine ← o.engine
  match (engine.compile pattern).1, readParameters engine.zone parameters with
  | .error e, _ =>
    return if e.aborts then .aborted .none
      else .finished false (if json then .report (Diagnosis.of pattern e).report else .none)
  | .ok _, .error _ => return .aborted .none
  | .ok _, .ok set =>
    match (engine.evaluate pattern set).1 with
    | .ok text =>
      return .finished true
        (if json then .report (.object [("result", .string text)]) else line text)
    | .error e =>
      return if e.aborts then .aborted .none
        else .finished false (if json then .report (.object [("error", .string e.message)]) else .none)

def checkReport (d : Dialect) (name pattern : String) : Report :=
  let error := match d.compile pattern with
    | .ok _ => []
    | .error e => [("error", (Diagnosis.of pattern e).report)]
  .object ([("name", .string name), ("pattern", .string pattern)] ++ error)

def isSound (d : Dialect) (pattern : String) : Bool :=
  (d.compile pattern).isOk

def abortsOn (d : Dialect) (pattern : String) : Bool :=
  match d.compile pattern with
  | .ok _ => false
  | .error e => e.aborts

def numbered (patterns : List String) : List (String × String) :=
  patterns.zipIdx.map fun (pattern, i) => ("pattern " ++ toString (i + 1), pattern)

def runCheck (patterns : List String) (withDefinitions : Bool) (o : PatternOptions)
    (json : Bool) : Outcome :=
  let targets := numbered patterns ++ if withDefinitions then o.definitions else []
  let checked := targets.takeWhile fun (_, pattern) => !abortsOn o.dialect pattern
  let sound := checked.filter fun (_, pattern) => isSound o.dialect pattern
  let reports := checked.map fun (name, pattern) => checkReport o.dialect name pattern
  let lines := Output.text (String.join (sound.map fun (name, _) => "ok " ++ name ++ "\n"))
  if checked.length < targets.length then .aborted (if json then .none else lines)
  else .finished (sound.length == targets.length) (if json then .report (.array reports) else lines)

def runPrint (pattern : String) (json : Bool) : Outcome :=
  match Expression.parse pattern with
  | .ok e => .finished true (if json then .report e.report else line e.print)
  | .error e =>
    .finished false (if json then .report (Diagnosis.of pattern (.syntaxError e)).report else .none)

def runExplain (pattern : String) (o : PatternOptions) (json : Bool) : Outcome :=
  match o.dialect.compile pattern with
  | .error e => if e.aborts then .aborted .none else .finished false .none
  | .ok c =>
    let explanations := Explanation.ofExpression c.bound
    .finished true
      (if json then .report (.array (explanations.map Explanation.report))
        else if explanations.isEmpty then line "Plain text, no strategies."
        else line (Explanation.table explanations))

def kindReport (kind : Script.StrategyKind) : Report :=
  .object [("role", .string kind.role.name), ("kind", .string kind.name)]

/-- The first definition that cannot be compiled stops the script. -/
def catalog (o : PatternOptions) (start : Script.Catalog) :
    Except Script.CatalogError Script.Catalog :=
  o.definitions.foldlM (fun c (name, pattern) =>
    let (space, key) := Evaluator.splitKey "" name
    c.compile o.dialect space key pattern) start

def runScript (o : PatternOptions) (name space : String)
    (includesSupport encodes strict json : Bool) : Except String Outcome := do
  if o.definitions.isEmpty then throw "no patterns to generate; pass them with -d key=pattern"
  let engine ← o.engine
  let start : Script.Catalog := {
    name, space, language := engine.language, lookup := some engine.lookup, encodes
    includesSupport }
  match catalog o start with
  | .error e => return if e.source.aborts then .aborted .none else .finished false .none
  | .ok c =>
    if c.stops .standard then return .aborted .none
    let missing := (c.findings .standard).missing
    let script := c.text .standard
    return .finished (!strict || missing.isEmpty)
      (if json then
        .report (.object [("script", .string script), ("missing", .array (missing.map kindReport))])
      else .text script)

def run : Command → Except String Outcome
  | eval pattern parameters o json => runEval pattern parameters o json
  | check patterns withDefinitions o json => .ok (runCheck patterns withDefinitions o json)
  | print pattern json => .ok (runPrint pattern json)
  | explain pattern o json => .ok (runExplain pattern o json)
  | script o name space includesSupport encodes strict json =>
    runScript o name space includesSupport encodes strict json

def runWords (words : List String) : Outcome :=
  match parse words with
  | .error e => .misused e
  | .ok command =>
    match command.run with
    | .ok outcome => outcome
    | .error message => .failed message

end Command

end Phrasebook
