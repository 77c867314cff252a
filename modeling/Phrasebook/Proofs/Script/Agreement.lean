import Phrasebook.Proofs.Condition.Rules
import Phrasebook.Proofs.Script.Encounters
import Phrasebook.Proofs.Text.Pieces
import Phrasebook.Script.Basic

namespace Phrasebook.Script

namespace Code

@[simp]
theorem kinds_empty : empty.kinds = [] := rfl

@[simp]
theorem kinds_word (s : String) : (word s).kinds = [] := rfl

@[simp]
theorem kinds_literal (s : String) : (literal s).kinds = [] := rfl

@[simp]
theorem kinds_number (x : Float) : (number x).kinds = [] := rfl

@[simp]
theorem kinds_append (a b : Code) : (a ++ b).kinds = a.kinds ++ b.kinds := rfl

@[simp]
theorem kinds_parens (a : Code) : (parens a).kinds = a.kinds := rfl

@[simp]
theorem kinds_brackets (a : Code) : (brackets a).kinds = a.kinds := rfl

@[simp]
theorem kinds_braces (a : Code) : (braces a).kinds = a.kinds := rfl

@[simp]
theorem kinds_separated (separator : String) (items : List Code) :
    (separated separator items).kinds = items.flatMap kinds := by
  induction items with
  | nil => rfl
  | cons a items ih =>
      cases items with
      | nil => simp [separated]
      | cons b items => simp [separated, ih]

@[simp]
theorem kinds_list (items : List Code) : (list items).kinds = items.flatMap kinds := by
  simp [list]

@[simp]
theorem kinds_call (f : String) (arguments : List Code) :
    (call f arguments).kinds = arguments.flatMap kinds := by
  simp [call]

@[simp]
theorem kinds_function (parameters : String) (body : Code) : (function parameters body).kinds = body.kinds := by
  simp [function]

@[simp]
theorem kinds_returning (parameters : String) (value : Code) :
    (returning parameters value).kinds = value.kinds := by
  simp [returning]

@[simp]
theorem kinds_immediate (body : Code) : (immediate body).kinds = body.kinds := by
  simp [immediate]

@[simp]
theorem kinds_concatenation (items : List Code) : (concatenation items).kinds = items.flatMap kinds := by
  simp [concatenation]

@[simp]
theorem kinds_operand (x : Float) : (operand x).kinds = [] := by
  unfold operand
  split <;> simp

end Code

open Code

section Plain

variable {value : Code}

theorem kinds_listCode (l : ValueList) (h : value.kinds = []) : (listCode l value).kinds = [] := by
  have htests (tests : List Code) (ht : ∀ t ∈ tests, t.kinds = []) (no yes join : String) :
      (if tests.isEmpty then word (if l.negated then no else yes)
        else parens (separated join tests)).kinds = [] := by
    split
    · rfl
    · simpa using ht
  apply htests
  cases l.values with
  | numbers values =>
      rw [List.forall_mem_append]
      refine ⟨?_, by simp [numeric, h]⟩
      split <;> simp [isNumber, numeric, h]
  | strings values => simp [h]

theorem kinds_boundsCode (i : Interval Float) (h : value.kinds = []) : (boundsCode i value).kinds = [] := by
  have hbound (comparison : String) (x : Float) : (boundCode value comparison x).kinds = [] := by
    simp [boundCode, numeric, h]
  have htests : ∀ t ∈ (i.min.map (boundCode value (if i.minInclusive then ">=" else ">"))).toList ++
      (i.max.map (boundCode value (if i.maxInclusive then "<=" else "<"))).toList, t.kinds = [] := by
    intro t ht
    simp only [List.mem_append, Option.mem_toList, Option.map_eq_some_iff] at ht
    obtain ⟨x, -, rfl⟩ | ⟨x, -, rfl⟩ := ht
    · exact hbound _ x
    · exact hbound _ x
  simp only [boundsCode]
  split
  · simp [isNumber, numeric, h]
  · rw [kinds_parens, kinds_separated]
    exact List.flatMap_eq_nil_iff.mpr htests

theorem kinds_rangeCode (range : Range) (h : value.kinds = []) : (rangeCode range value).kinds = [] := by
  cases range with
  | numbers i => exact kinds_boundsCode i h
  | spans i => exact kinds_boundsCode _ h

theorem kinds_operationCode (step : Operation × Float) {subject : Code} (h : subject.kinds = []) :
    (operationCode subject step).kinds = [] := by
  obtain ⟨op, x⟩ := step
  cases op <;> simp [operationCode, h]

theorem kinds_arithmeticCode (a : Arithmetic) (h : value.kinds = []) : (arithmeticCode a value).kinds = [] := by
  have hfold (steps : List (Operation × Float)) (subject : Code) (hs : subject.kinds = []) :
      (steps.foldl operationCode subject).kinds = [] := by
    induction steps generalizing subject with
    | nil => exact hs
    | cons step steps ih => exact ih _ (kinds_operationCode step hs)
  have hvalue : (numeric value).kinds = [] := by simp [numeric, h]
  simp only [arithmeticCode, kinds_parens]
  split <;> simp [isNumber, hvalue, hfold _ _ hvalue]

end Plain

def Registry.IsBuiltIn (r : Registry) : Prop :=
  ∀ kind h, r.find? kind ≠ some (.host h)

theorem Registry.find?_builtIns (kinds : List StrategyKind) (kind : StrategyKind) :
    (builtIns kinds).find? kind = if kind ∈ kinds then some .builtIn else none := by
  unfold builtIns find?
  induction kinds with
  | nil => rfl
  | cons k kinds ih =>
      rw [List.map_cons, List.lookup_cons]
      by_cases hk : kind = k
      · simp [hk]
      · simpa [beq_false_of_ne hk, hk] using ih

theorem Registry.isBuiltIn_builtIns (kinds : List StrategyKind) : (builtIns kinds).IsBuiltIn := by
  intro kind h
  rw [find?_builtIns]
  split <;> simp

section

variable {r : Registry} {s : Scope} {value : Code}

theorem kinds_dispatch (hr : r.IsBuiltIn) (strategy : Strategy) (depth : Nat) (arguments : List Code)
    (builtIn : Unit → Code) :
    (dispatch r strategy depth arguments builtIn).kinds = r.met strategy.kind (builtIn ()).kinds := by
  rw [dispatch, kinds, Registry.met]
  rcases h : r.find? strategy.kind with _ | _ | host
  · rfl
  · rfl
  · exact absurd h (hr _ host)

theorem kinds_formatterCode (hr : r.IsBuiltIn) (format : Formatter) (h : value.kinds = []) :
    (formatterCode r format value).kinds = Encounters.formatter r format := by
  rw [formatterCode, kinds_dispatch hr, Encounters.formatter]
  congr 1
  cases format <;> simp [builtInFormatter, plainText, rawValue, h]

theorem kinds_keyCode (key : LookupKey) : (keyCode key).kinds = [] := by
  cases key with
  | fixed key =>
      rw [keyCode, kinds_append]
      split <;> simp
  | parameter name suffix => by_cases h : suffix.isEmpty <;> simp [keyCode, rawValue, parameter, h]

theorem kinds_argumentCode (hr : r.IsBuiltIn) (position : Nat) (a : LookupArgument) :
    (argumentCode r position a).kinds = Encounters.argument r a := by
  rcases a with _ | s | ⟨name, _ | format⟩
  · rfl
  · simp [argumentCode, setArgument, Encounters.argument]
  · simp [argumentCode, setArgument, parameter, Encounters.argument]
  · simp [argumentCode, setArgument, parameter, Encounters.argument, kinds_formatterCode hr _ (kinds_word _)]

theorem kinds_argumentsCode (hr : r.IsBuiltIn) (position : Nat) (arguments : List LookupArgument) :
    (argumentsCode r position arguments).kinds = arguments.flatMap (Encounters.argument r) := by
  induction arguments generalizing position with
  | nil => rfl
  | cons a arguments ih => simp [argumentsCode, kinds_argumentCode hr, ih]

theorem kinds_evaluatorCode (hr : r.IsBuiltIn) (e : Evaluator) :
    (evaluatorCode r e).kinds = Encounters.evaluator r e := by
  rw [evaluatorCode, kinds_dispatch hr]
  cases e with
  | direct name => simp [builtInEvaluator, parameter, Encounters.evaluator]
  | property base path =>
      have hpath : (path.map literal).flatMap kinds = [] := by simp
      simp [builtInEvaluator, parameter, Encounters.evaluator, hpath]
  | lookup key arguments =>
      rw [builtInEvaluator, kinds_immediate, Encounters.evaluator]
      simp [kinds_keyCode, kinds_argumentsCode hr]
  | host e => rfl

theorem kinds_conditionCode (hr : r.IsBuiltIn) {deeper : Condition → Code → Code}
    {deeper' : Condition → List StrategyKind}
    (hdeeper : ∀ c value, value.kinds = [] → (deeper c value).kinds = deeper' c) (depth : Nat)
    (h : value.kinds = []) (c : Condition) :
    (conditionCode r s deeper depth value c).kinds = Encounters.condition r s deeper' c := by
  induction c with
  | connective left connective right ihl ihr =>
      simp [conditionCode, kinds_dispatch hr, Encounters.condition, ihl, ihr]
  | stored space key =>
      rw [conditionCode, kinds_dispatch hr, Encounters.condition]
      cases s.condition? space key with
      | none => rfl
      | some c => exact congrArg _ (hdeeper c value h)
  | arithmetic a => simp [conditionCode, kinds_dispatch hr, Encounters.condition, kinds_arithmeticCode a h]
  | range range => simp [conditionCode, kinds_dispatch hr, Encounters.condition, kinds_rangeCode range h]
  | oneOf l => simp [conditionCode, kinds_dispatch hr, Encounters.condition, kinds_listCode l h]
  | _ => simp [conditionCode, kinds_dispatch hr, Encounters.condition]

theorem kinds_storedCode (hr : r.IsBuiltIn) (n : Nat) (c : Condition) (value : Code) (h : value.kinds = []) :
    (storedCode r s n c value).kinds = Encounters.storedCondition r s n c := by
  induction n generalizing c value with
  | zero => rfl
  | succ n ih => exact kinds_conditionCode hr ih _ h c

theorem kinds_caseTest (hr : r.IsBuiltIn) (c : Condition) (name : String) :
    (caseTest r s c (word name)).kinds =
      Encounters.condition r s (Encounters.storedCondition r s defaultMaxDepth) c :=
  kinds_conditionCode hr (kinds_storedCode hr defaultMaxDepth) 0 (kinds_word name) c

theorem kinds_expanderCode (hr : r.IsBuiltIn) (x : Expander) (wrapper content : String) :
    (expanderCode r x (word wrapper) (word content)).kinds = r.met (Strategy.expander x).kind [] := by
  unfold expanderCode
  rw [kinds_dispatch hr]
  cases x <;> simp

theorem kinds_partsCode (e : BoundExpression) :
    (partsCode r s e).kinds = (partCodes r s e).flatMap kinds := by
  unfold partsCode together
  split <;> simp [*]

theorem mem_casesCode (hr : r.IsBuiltIn) {cs : List BoundCase} {kind : StrategyKind}
    (h : ∀ c ∈ cs, kind ∈ (partsCode r s c.body).kinds ↔ kind ∈ Encounters.parts r s c.body) :
    kind ∈ (casesCode r s cs).kinds ↔ kind ∈ Encounters.cases r s cs := by
  induction cs with
  | nil => rw [casesCode, Encounters.cases, kinds_literal]
  | cons c cs ih =>
      obtain ⟨isOpen, spelling, condition, e⟩ := c
      rw [List.forall_mem_cons] at h
      simp [casesCode, Encounters.cases, testBoth, kinds_caseTest hr, h.1, ih h.2]

/-- Code is asked of the kinds that are met in an expression and of no others. The order differs: the
branch for no value is written first, and each test twice. -/
theorem mem_partsCode (hr : r.IsBuiltIn) (e : BoundExpression) (kind : StrategyKind) :
    kind ∈ (partsCode r s e).kinds ↔ kind ∈ Encounters.parts r s e := by
  induction e using BoundExpression.induction with
  | step e ih =>
      have hpart : ∀ p ∈ e, kind ∈ (partCode r s p).kinds ↔ kind ∈ Encounters.part r s p := by
        intro p hp
        cases p with
        | text content => simp [partCode, Encounters.part]
        | parameter ref evaluator format =>
            simp [partCode, Encounters.part, kinds_evaluatorCode hr, kinds_formatterCode hr _ (kinds_word _)]
        | switch subject evaluator format template cs nullCase =>
            have hcases := mem_casesCode hr fun c hc =>
              ih _ hp c.body (List.mem_append_left _ (List.mem_map_of_mem hc))
            have hnull (b : BoundExpression) (hb : nullCase = some b) :=
              ih _ hp b (List.mem_append_right _ (Option.mem_toList.mpr hb))
            rcases format with _ | format <;> rcases nullCase with _ | b <;>
              simp [partCode, Encounters.part, Encounters.body, kinds_evaluatorCode hr,
                kinds_formatterCode hr _ (kinds_word _), hcases, hnull, or_assoc, or_comm, or_left_comm]
        | group name evaluator expander content =>
            have hbody (b : BoundExpression) (hb : content = some b) :=
              ih _ hp b (Option.mem_toList.mpr hb)
            rcases content with _ | b <;>
              simp [partCode, Encounters.part, Encounters.body, kinds_evaluatorCode hr,
                kinds_expanderCode hr, hbody, rawValue, or_comm]
        | custom node part => simp [partCode, Encounters.part, kinds_dispatch hr]
      rw [kinds_partsCode]
      clear ih
      induction e with
      | nil => simp [partCodes, Encounters.parts]
      | cons p e ih =>
          rw [List.forall_mem_cons] at hpart
          simp [partCodes, Encounters.parts, hpart.1, ih hpart.2]

end

namespace Registry

variable {r : Registry} {kind : StrategyKind} {g : Generator}

theorem isInfix_addHelper (r : Registry) (written : String) (kind : StrategyKind) :
    written.toList <:+: (r.addHelper written kind).toList := by
  simp only [addHelper]
  split
  · exact List.infix_rfl
  · rw [String.toList_append]
    exact (List.prefix_append _ _).isInfix

theorem helpers_isInfix_addHelper (hg : r.find? kind = some g) (written : String) :
    (g.helpers kind).toList <:+: (r.addHelper written kind).toList := by
  simp only [addHelper, hg, Option.map_some, Option.getD_some]
  split
  next h => exact Text.isInfix_of_splitOnce h
  next =>
    rw [String.toList_append]
    exact (List.suffix_append _ _).isInfix

theorem isInfix_foldl_addHelper (r : Registry) (used : List StrategyKind) (written : String) :
    written.toList <:+: (used.foldl r.addHelper written).toList := by
  induction used generalizing written with
  | nil => exact List.infix_rfl
  | cons k used ih => exact (r.isInfix_addHelper written k).trans (ih _)

theorem helpers_isInfix (hg : r.find? kind = some g) {used : List StrategyKind} (hkind : kind ∈ used) :
    (g.helpers kind).toList <:+: (r.helpers used).toList := by
  obtain ⟨before, after, rfl⟩ := List.append_of_mem hkind
  rw [helpers, List.foldl_append, List.foldl_cons]
  exact (helpers_isInfix_addHelper hg _).trans (r.isInfix_foldl_addHelper after _)

end Registry

namespace Code

@[simp]
theorem chars_append (a b : Code) : (a ++ b).chars = a.chars ++ b.chars := rfl

theorem chars_separated_literal (separator : String) (items : List String) :
    (separated separator (items.map literal)).chars =
      (Text.joined separator (items.map Text.literal)).toList := by
  induction items with
  | nil => rfl
  | cons a items ih =>
      cases items with
      | nil => rfl
      | cons b items =>
          rw [List.map_cons, List.map_cons] at ih ⊢
          simp [separated, ih, Text.joined, chars]

end Code

theorem text_placeholder (missing : List StrategyKind) :
    (returning "c" (placeholder missing)).text =
      "function(c)\x7breturn [" ++
        Text.joined "," (missing.map fun kind => Text.literal (kind.missingText ++ "\n")) ++
        "].join('');\x7d" := by
  have hitems := chars_separated_literal "," (missing.map fun kind => kind.missingText ++ "\n")
  rw [List.map_map, List.map_map] at hitems
  apply String.toList_inj.mp
  simp only [text, placeholder, returning, function, concatenation, list, parens, brackets, braces,
    chars_append, chars, String.toList_ofList, String.toList_append]
  rw [Function.comp_def, Function.comp_def] at hitems
  rw [hitems]
  simp [Bracket.opening, Bracket.closing]

theorem kinds_entryCode (r : Registry) (s : Scope) (e : BoundExpression) :
    ∀ kind ∈ (entryCode r s e []).kinds, kind ∈ (partsCode r s e).kinds := by
  intro kind hkind
  unfold entryCode at hkind
  split at hkind
  · cases hkind
  · cases hkind
  · simpa using hkind

theorem entryCode_incomplete {r : Registry} {s : Scope} {e : BoundExpression}
    (hmet : Encounters.parts r s e ≠ []) {missing : List StrategyKind} (hmissing : missing ≠ []) :
    entryCode r s e missing = returning "c" (placeholder missing) := by
  unfold entryCode
  split
  · exact absurd rfl hmet
  · exact absurd rfl hmet
  · simp [hmissing]

theorem missing_eq (r : Registry) (s : Scope) (e : BoundExpression) :
    (generate r s e).missing = ((Encounters.parts r s e).filter (!r.contains ·)).eraseDups :=
  congrArg Findings.missing (findings_eq r s e)

theorem missing_eq_nil_iff {r : Registry} {s : Scope} {e : BoundExpression} :
    (generate r s e).missing = [] ↔ ∀ kind ∈ Encounters.parts r s e, r.contains kind = true := by
  rw [missing_eq, List.eq_nil_iff_forall_not_mem]
  simp [List.mem_eraseDups]

/-- Where the check of the built-in generators misses nothing, each strategy that is asked for its code
is one that was met, it has a generator, and the script holds the functions that its code calls. Where
it misses something, the script only says what, each kind once and in the order in which it is met. -/
theorem generate_builtIns (kinds : List StrategyKind) (s : Scope) (e : BoundExpression) :
    let r := Registry.builtIns kinds
    let script := generate r s e
    (script.missing = [] →
      ∀ kind ∈ (entryCode r s e script.missing).kinds,
        kind ∈ (findings r s e).used ∧
          ∃ g, r.find? kind = some g ∧ (g.helpers kind).toList <:+: script.helpers.toList) ∧
    (script.missing ≠ [] →
      script.source = "function(c)\x7breturn [" ++
        Text.joined "," (script.missing.map fun kind => Text.literal (kind.missingText ++ "\n")) ++
        "].join('');\x7d" ∧
      script.missing.Nodup ∧
      script.missing = ((Encounters.parts r s e).filter (!r.contains ·)).eraseDups) := by
  intro r script
  have hmissing := missing_eq r s e
  refine ⟨fun hnone kind hkind => ?_, fun hsome => ⟨?_, ?_, hmissing⟩⟩
  · rw [hnone] at hkind
    have hmet : kind ∈ Encounters.parts r s e :=
      (mem_partsCode (Registry.isBuiltIn_builtIns kinds) e kind).mp (kinds_entryCode r s e kind hkind)
    have hcontains : r.contains kind = true := missing_eq_nil_iff.mp hnone kind hmet
    have hused : kind ∈ (findings r s e).used := by
      rw [findings_eq, List.mem_eraseDups]
      exact List.mem_filter.mpr ⟨hmet, hcontains⟩
    obtain ⟨g, hg⟩ := Option.isSome_iff_exists.mp hcontains
    exact ⟨hused, g, hg, Registry.helpers_isInfix hg hused⟩
  · have hmet : Encounters.parts r s e ≠ [] := by
      intro h
      exact hsome (missing_eq_nil_iff.mpr (by simp [h]))
    rw [← text_placeholder, ← entryCode_incomplete hmet hsome]
    rfl
  · rw [hmissing]
    exact nodup_eraseDups _

/-- A condition that is stored and leads to itself. -/
def selfReferring : Scope where
  lookup := some ⟨Store.empty.insert "" "c" "" "@c", .withConditions [.stored]⟩

theorem condition?_selfReferring : selfReferring.condition? none "c" = some (.stored none "c") := by
  have hcondition : (Dialect.withConditions [.stored]).condition .switchCase "@c" = .ok (.stored none "c") :=
    Dialect.conditionFrom_cons (by simp) _ _ _ _
  have hfind : (Store.empty.insert "" "c" "" "@c").find? "" "c" .invariant = some "@c" := by decide +kernel
  have htrim : Text.trim ['@', 'c'] ≠ [] := by decide
  simp [Scope.condition?, Scope.stored?, selfReferring, hfind, htrim, hcondition, Except.toOption]

def choiceKinds : List StrategyKind :=
  [⟨.evaluator, "DirectEvaluator"⟩, ⟨.formatter, "CaseFormatter"⟩, ⟨.condition, "LookupCondition"⟩]

theorem contains_of_mem_selfReferring (n : Nat) :
    ∀ kind ∈ Encounters.storedCondition (.builtIns choiceKinds) selfReferring n (.stored none "c"),
      (Registry.builtIns choiceKinds).contains kind = true := by
  induction n with
  | zero => nofun
  | succ n ih =>
      rw [Encounters.storedCondition, Encounters.condition, condition?_selfReferring]
      exact List.forall_mem_cons.mpr ⟨by decide, ih⟩

def choice : BoundExpression :=
  [.switch ⟨"N", "", none⟩ (.direct "N") none none
    [⟨false, "@c", .stored none "c", [.parameter ⟨"N", "", none⟩ (.direct "N") (.letterCase .upper)]⟩] none]

theorem generate_selfReferring :
    let script := generate (.builtIns choiceKinds) selfReferring choice
    (script.missing = [] ∧
      ∀ kind ∈ (entryCode (.builtIns choiceKinds) selfReferring choice script.missing).kinds,
        kind ∈ (findings (.builtIns choiceKinds) selfReferring choice).used) ∧
    let script := generate (.builtIns []) selfReferring choice
    script.missing ≠ [] ∧
      script.source = "function(c)\x7breturn [\"Missing ParameterEvaluator: DirectEvaluator\\n\"," ++
        "\"Missing SwitchCondition: LookupCondition\\n\",\"Missing ValueFormatter: CaseFormatter\\n\"" ++
        "].join('');\x7d" := by
  intro script
  have hcomplete : script.missing = [] := by
    have hmet : Encounters.parts (.builtIns choiceKinds) selfReferring choice =
        ⟨.evaluator, "DirectEvaluator"⟩ ::
          (Encounters.storedCondition (.builtIns choiceKinds) selfReferring (defaultMaxDepth + 1)
            (.stored none "c") ++
          [⟨.evaluator, "DirectEvaluator"⟩, ⟨.formatter, "CaseFormatter"⟩]) := by
      rw [Encounters.storedCondition]
      simp only [choice, Encounters.parts, Encounters.part, Encounters.cases, Encounters.body,
        Option.toList_none, List.flatMap_nil, List.append_nil]
      rfl
    rw [missing_eq_nil_iff, hmet, List.forall_mem_cons, List.forall_mem_append]
    exact ⟨by decide, contains_of_mem_selfReferring _, by decide⟩
  have hincomplete : (generate (.builtIns []) selfReferring choice).missing ≠ [] := by decide +kernel
  refine ⟨⟨hcomplete, fun kind hkind => ?_⟩, hincomplete, ?_⟩
  · exact ((generate_builtIns choiceKinds selfReferring choice).1 hcomplete kind hkind).1
  · rw [((generate_builtIns [] selfReferring choice).2 hincomplete).1]
    decide +kernel

end Phrasebook.Script
