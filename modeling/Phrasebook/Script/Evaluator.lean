import Phrasebook.Script.Findings

namespace Phrasebook

namespace Script

open Code

def dispatch (r : Registry) (strategy : Strategy) (depth : Nat) (arguments : List Code)
    (builtIn : Unit → Code) : Code :=
  .written strategy.kind <|
    match r.find? strategy.kind with
    | none => word "undefined"
    | some .builtIn => builtIn ()
    | some (.host h) => h.write strategy depth arguments

def caseFunction : LetterCase → String
  | .lower => "_lc"
  | .upper => "_uc"
  | .capitalizeFirst => "_cf"
  | .capitalizeAll => "_ca"

def plainText (value : Code) : Code := call "dv" [value]
def rawValue (value : Code) : Code := call "val" [value]

def builtInFormatter (format : Formatter) (value : Code) : Code :=
  match format with
  | .default => plainText value
  | .letterCase mode => call (caseFunction mode) [plainText value]
  | .formatString s => call "sf" [literal s, rawValue value]
  | _ => word "undefined"

def formatterCode (r : Registry) (format : Formatter) (value : Code) : Code :=
  dispatch r (.formatter format) 0 [value] fun _ => builtInFormatter format value

def parameter (name : String) : Code := call "c.g" [literal name]

def keyCode : LookupKey → Code
  | .fixed key =>
    word "var k=" ++
      match Text.splitOnce Condition.spaceMark key.toList with
      | some (space, key) =>
        literal (String.ofList key) ++ word ",ns=" ++ literal (String.ofList space) ++ word ";"
      | none => literal key ++ word ",ns=c.n;"
  | .parameter name suffix =>
    let mark := String.ofList Condition.spaceMark
    word "var k=" ++ rawValue (parameter name) ++ word ";if" ++ parens (word "k==null") ++
      word "return null;k=" ++ literal "" ++ word "+k" ++
      (if suffix.isEmpty then empty else word "+" ++ literal suffix) ++
      word ";var ns=c.n,i=k.indexOf" ++ parens (literal mark) ++
      word ";if" ++ parens (word "i>=0") ++
      braces (word "ns=k.substring" ++ parens (word "0,i") ++ word ";k=k.substring" ++
        parens (word ("i+" ++ toString mark.length)) ++ word ";")

def setArgument (name : String) (value : Code) : Code :=
  word "vs" ++ brackets (literal name) ++ word "=" ++ value ++ word ";"

def argumentCode (r : Registry) (position : Nat) : LookupArgument → Code
  | .skipped => empty
  | .literal s => setArgument (toString position) (literal s)
  | .parameter name format =>
    word "v=" ++ parameter name ++ word ";" ++
      (match format with
        | some f =>
          word "v=" ++
            call "m.withFormat" [word "v", returning "v" (formatterCode r f (word "v"))] ++ word ";"
        | none => empty) ++
      setArgument name (word "v") ++ setArgument (toString position) (word "v")

def argumentsCode (r : Registry) : (position : Nat) → List LookupArgument → Code
  | _, [] => empty
  | position, argument :: rest =>
    argumentCode r position argument ++ argumentsCode r (position + 1) rest

def builtInEvaluator (r : Registry) : Evaluator → Code
  | .direct name => parameter name
  | .property base path => call "rp" [parameter base, list (path.map literal)]
  | .lookup key arguments =>
    immediate
      (keyCode key ++ word "var vs=" ++ braces empty ++ word ",v;" ++ argumentsCode r 0 arguments ++
        word "return " ++ call "m.unencoded" [call "m.get" [word "k", word "vs", word "ns"]] ++
        word ";")
  | .host _ => word "undefined"

def evaluatorCode (r : Registry) (e : Evaluator) : Code :=
  dispatch r (.evaluator e) 0 [] fun _ => builtInEvaluator r e

end Script

end Phrasebook
