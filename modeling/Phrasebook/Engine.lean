import Phrasebook.Evaluation.Render

namespace Phrasebook

structure Engine where
  dialect : Dialect := .standard
  store : Store := .empty
  space : String := ""
  language : Language := .invariant
  zone : Int := 0
  encoder : Encoder := .identity
  /-- Patterns that have been compiled, each once. -/
  cached : List String := []
  host : Host := {}

namespace Engine

def remember (e : Engine) (pattern : String) : Engine :=
  if pattern ∈ e.cached then e else { e with cached := pattern :: e.cached }

def rememberAll (e : Engine) (journal : List Event) : Engine :=
  journal.foldr (fun
    | .compiled pattern, e => e.remember pattern
    | .entered _, e => e) e

def clearCache (e : Engine) : Engine := { e with cached := [] }

def insert (e : Engine) (space key tag pattern : String) : Engine :=
  { e with store := e.store.insert space key tag pattern }

def lookup (e : Engine) : Lookup := ⟨e.store, e.dialect⟩

def contextFor (e : Engine) (space : String) (language : Language) (parameters : ParameterSet) :
    Context where
  language
  zone := e.zone
  space
  layers := [parameters]
  encoder := e.encoder
  maxDepth := defaultMaxDepth
  calls := []
  host := e.host
  lookup := some e.lookup
  journal := []

def context (e : Engine) (parameters : ParameterSet) : Context :=
  e.contextFor e.space e.language parameters

def pattern? (e : Engine) (space key : String) (language : Language) : Option String :=
  e.store.find? space key language

def compile (e : Engine) (pattern : String) : Except CompileError Compiled × Engine :=
  match e.dialect.compile pattern with
  | .ok c => (.ok c, e.remember pattern)
  | .error error => (.error error, e)

def condition (e : Engine) (spelling : String) : Except BindError Condition :=
  e.dialect.condition .switchCase spelling

def renderPattern (e : Engine) (key pattern : String) (ctx : Context) :
    Except EvalError String × Engine :=
  match e.compile pattern with
  | (.error error, e) => (.error (.compile key error), e)
  | (.ok c, e) =>
    let (result, after) := c.evaluate ctx
    (result, e.rememberAll after.journal)

def renderIn (e : Engine) (space key : String) (language : Language) (parameters : ParameterSet) :
    Except EvalError String × Engine :=
  match e.pattern? space key language with
  | none => (.error (.unresolvedLookup space key (Text.suggestions key (e.store.keys space))), e)
  | some pattern =>
    e.renderPattern (Call.stored space key).name pattern (e.contextFor space language parameters)

def render (e : Engine) (key : String) (parameters : ParameterSet) :
    Except EvalError String × Engine :=
  e.renderIn e.space key e.language parameters

def evaluate (e : Engine) (pattern : String) (parameters : ParameterSet) :
    Except EvalError String × Engine :=
  e.renderPattern pattern pattern (e.context parameters)

end Engine

end Phrasebook
