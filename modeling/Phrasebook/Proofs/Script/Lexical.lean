import Phrasebook.Proofs.Evaluation.Traversal
import Phrasebook.Proofs.Format.Figures
import Phrasebook.Proofs.Script.Agreement
import Phrasebook.Proofs.Text.Literal

namespace Phrasebook.Script

def Bracket.ofOpening? : Char → Option Bracket
  | '(' => some .round
  | '[' => some .square
  | '{' => some .curly
  | _ => none

def Bracket.ofClosing? : Char → Option Bracket
  | ')' => some .round
  | ']' => some .square
  | '}' => some .curly
  | _ => none

def isQuote (c : Char) : Bool :=
  c == '"' || c == '\''

/-- Where a reader is: in the code, or in a literal of which it has read some characters, the last of them
perhaps the backslash of an escape. -/
inductive Place where
  | code
  | literal (quote : Char) (raw : List Char) (escaping : Bool)
deriving DecidableEq

structure Reader where
  place : Place := .code
  /-- Brackets that are not closed yet, the innermost first. -/
  opened : List Bracket := []
  /-- What the literals in double quotes spell, in the order of the text. -/
  found : List String := []
deriving DecidableEq

namespace Reader

def readCode (opened : List Bracket) (found : List String) (c : Char) : Option Reader :=
  if isQuote c then some ⟨.literal c [] false, opened, found⟩
  else
    match Bracket.ofOpening? c with
    | some bracket => some ⟨.code, bracket :: opened, found⟩
    | none =>
      match Bracket.ofClosing? c with
      | none => some ⟨.code, opened, found⟩
      | some bracket =>
        match opened with
        | [] => none
        | innermost :: opened => if innermost = bracket then some ⟨.code, opened, found⟩ else none

/-- The literal ends at its quote, unless that is escaped. What stands in double quotes has to be a string
of JSON. -/
def readLiteral (opened : List Bracket) (found : List String) (quote : Char) (raw : List Char)
    (escaping : Bool) (c : Char) : Option Reader :=
  if c = '\n' ∨ c = '\r' then none
  else if escaping then some ⟨.literal quote (raw ++ [c]) false, opened, found⟩
  else if c = '\\' then some ⟨.literal quote (raw ++ [c]) true, opened, found⟩
  else if c ≠ quote then some ⟨.literal quote (raw ++ [c]) false, opened, found⟩
  else if quote = '"' then
    (Text.unescape raw).map fun s => ⟨.code, opened, found ++ [String.ofList s]⟩
  else some ⟨.code, opened, found⟩

def step (r : Reader) (c : Char) : Option Reader :=
  match r.place with
  | .code => readCode r.opened r.found c
  | .literal quote raw escaping => readLiteral r.opened r.found quote raw escaping c

/-- Reads a text, unless a bracket in it closes none or another than the last that was opened, or a literal
in it is none. -/
def run (r : Reader) (s : List Char) : Option Reader :=
  s.foldlM step r

theorem run_cons (r : Reader) (c : Char) (s : List Char) : r.run (c :: s) = (r.step c).bind (run · s) := rfl

theorem run_append (r : Reader) (s t : List Char) : r.run (s ++ t) = (r.run s).bind (run · t) :=
  List.foldlM_append

end Reader

def IsNeutral (c : Char) : Prop :=
  isQuote c = false ∧ Bracket.ofOpening? c = none ∧ Bracket.ofClosing? c = none

instance (c : Char) : Decidable (IsNeutral c) :=
  inferInstanceAs (Decidable (_ ∧ _))

/-- Neutral text, or an empty literal. -/
def IsWord (s : String) : Prop :=
  (∀ c ∈ s.toList, IsNeutral c) ∨ s = "''"

instance (s : String) : Decidable (IsWord s) :=
  inferInstanceAs (Decidable (_ ∨ _))

namespace Code

/-- All literals and brackets of the code are marked as such. -/
def Marked : Code → Prop
  | word s => IsWord s
  | inside _ content => content.Marked
  | append first second => first.Marked ∧ second.Marked
  | written _ content => content.Marked
  | _ => True

def literals : Code → List String
  | literal s => [s]
  | inside _ content => content.literals
  | append first second => first.literals ++ second.literals
  | written _ content => content.literals
  | _ => []

end Code

theorem isNeutral_numberText (x : Float) : ∀ c ∈ (numberText x).toList, IsNeutral c := by
  have halphabet : ∀ c ∈ floatAlphabet, IsNeutral c := by decide
  unfold numberText
  split
  · split <;> decide
  · exact fun c hc => halphabet c (floatText_subset x hc)

namespace Reader

variable (opened : List Bracket) (found : List String)

theorem run_neutral {s : List Char} (h : ∀ c ∈ s, IsNeutral c) :
    run ⟨.code, opened, found⟩ s = some ⟨.code, opened, found⟩ := by
  induction s with
  | nil => rfl
  | cons c s ih =>
      rw [List.forall_mem_cons] at h
      obtain ⟨⟨hquote, hopening, hclosing⟩, hs⟩ := h
      rw [run_cons, step, readCode, hquote, hopening, hclosing]
      exact ih hs

variable (raw : List Char)

theorem step_verbatim {c : Char} (h : Text.IsVerbatim c) :
    step ⟨.literal '"' raw false, opened, found⟩ c = some ⟨.literal '"' (raw ++ [c]) false, opened, found⟩ := by
  obtain ⟨hquote, hbackslash, hcontrol⟩ := h
  have hline : ¬(c = '\n' ∨ c = '\r') := by
    rintro (rfl | rfl) <;> exact absurd hcontrol (by decide)
  simp [step, readLiteral, hline, hquote, hbackslash]

theorem step_escaped {c : Char} (h : 32 ≤ c.toNat) :
    step ⟨.literal '"' raw true, opened, found⟩ c = some ⟨.literal '"' (raw ++ [c]) false, opened, found⟩ := by
  have hline : ¬(c = '\n' ∨ c = '\r') := by
    rintro (rfl | rfl) <;> exact absurd h (by decide)
  simp [step, readLiteral, hline]

theorem run_escape {c : Char} (h : 32 ≤ c.toNat) (s : List Char) :
    run ⟨.literal '"' raw false, opened, found⟩ ('\\' :: c :: s) =
      run ⟨.literal '"' (raw ++ ['\\', c]) false, opened, found⟩ s := by
  have hbackslash : step ⟨.literal '"' raw false, opened, found⟩ '\\' =
      some ⟨.literal '"' (raw ++ ['\\']) true, opened, found⟩ := rfl
  rw [run_cons, hbackslash, Option.bind_some, run_cons, step_escaped _ _ _ h, Option.bind_some,
    List.append_assoc]
  rfl

theorem run_verbatim {s : List Char} (h : ∀ c ∈ s, Text.IsVerbatim c) :
    run ⟨.literal '"' raw false, opened, found⟩ s = some ⟨.literal '"' (raw ++ s) false, opened, found⟩ := by
  induction s generalizing raw with
  | nil =>
      rw [List.append_nil]
      rfl
  | cons c s ih =>
      rw [List.forall_mem_cons] at h
      rw [run_cons, step_verbatim _ _ _ h.1, Option.bind_some, ih _ h.2, List.append_assoc]
      rfl

theorem run_literalChar (c : Char) :
    run ⟨.literal '"' raw false, opened, found⟩ (Text.literalChar c) =
      some ⟨.literal '"' (raw ++ Text.literalChar c) false, opened, found⟩ := by
  rcases Text.literalChar_cases c with ⟨x, hc, -, hx, -⟩ | ⟨a, b, d, e, hc, hdigits, -⟩ | ⟨hc, hverbatim⟩
  · rw [hc, run_escape _ _ _ hx]
    rfl
  · rw [hc, run_escape _ _ _ (by decide), run_verbatim _ _ _ hdigits, List.append_assoc]
    rfl
  · rw [hc]
    exact run_verbatim _ _ _ (List.forall_mem_singleton.mpr hverbatim)

theorem run_literalChars (s : List Char) :
    run ⟨.literal '"' raw false, opened, found⟩ (s.flatMap Text.literalChar) =
      some ⟨.literal '"' (raw ++ s.flatMap Text.literalChar) false, opened, found⟩ := by
  induction s generalizing raw with
  | nil =>
      rw [List.flatMap_nil, List.append_nil]
      rfl
  | cons c s ih =>
      rw [List.flatMap_cons, run_append, run_literalChar, Option.bind_some, ih, List.append_assoc]

theorem run_literal (s : String) :
    run ⟨.code, opened, found⟩ (Text.literal s).toList = some ⟨.code, opened, found ++ [s]⟩ := by
  have hquote : step ⟨.code, opened, found⟩ '"' = some ⟨.literal '"' [] false, opened, found⟩ := rfl
  have hend (raw : List Char) : step ⟨.literal '"' raw false, opened, found⟩ '"' =
      (Text.unescape raw).map fun s => ⟨.code, opened, found ++ [String.ofList s]⟩ := rfl
  rw [Text.literal, String.toList_ofList, List.cons_append, run_cons, hquote, Option.bind_some, run_append,
    run_literalChars, Option.bind_some, run_cons, hend, List.nil_append,
    Text.unescape_flatMap_literalChar, Option.map_some, String.ofList_toList]
  rfl

theorem run_word {s : String} (h : IsWord s) :
    run ⟨.code, opened, found⟩ s.toList = some ⟨.code, opened, found⟩ := by
  rcases h with h | rfl
  · exact run_neutral opened found h
  · rfl

theorem step_opening (bracket : Bracket) :
    step ⟨.code, opened, found⟩ bracket.opening = some ⟨.code, bracket :: opened, found⟩ := by
  cases bracket <;> rfl

theorem step_closing (bracket : Bracket) :
    step ⟨.code, bracket :: opened, found⟩ bracket.closing = some ⟨.code, opened, found⟩ := by
  cases bracket <;> rfl

/-- Marked code is read without a rest: it leaves no literal and no bracket open, and its literals spell
what they were written for. -/
theorem run_chars {code : Code} (h : code.Marked) :
    run ⟨.code, opened, found⟩ code.chars = some ⟨.code, opened, found ++ code.literals⟩ := by
  induction code generalizing opened found with
  | empty => simp [Code.chars, Code.literals, run]
  | word s => simpa [Code.chars, Code.literals] using run_word opened found h
  | literal s => exact run_literal opened found s
  | number x => simpa [Code.chars, Code.literals] using run_neutral opened found (isNeutral_numberText x)
  | inside bracket content ih =>
      rw [Code.chars, List.cons_append, run_cons, step_opening, Option.bind_some, run_append, ih _ _ h,
        Option.bind_some, run_cons, step_closing]
      rfl
  | append first second ih ih' =>
      rw [Code.chars, run_append, ih _ _ h.1, Option.bind_some, ih' _ _ h.2, Code.literals, List.append_assoc]
  | written kind content ih => exact ih _ _ h

example : run {} "f(\"a)\\\"]\",['('])".toList = some { found := ["a)\"]"] } := by decide +kernel
example : run {} "f(\"a\"]".toList = none := by decide +kernel

end Reader

namespace Code

@[simp]
theorem marked_empty : empty.Marked := trivial

@[simp]
theorem marked_word (s : String) : (word s).Marked ↔ IsWord s := Iff.rfl

@[simp]
theorem marked_literal (s : String) : (literal s).Marked := trivial

@[simp]
theorem marked_number (x : Float) : (number x).Marked := trivial

@[simp]
theorem marked_append (a b : Code) : (a ++ b).Marked ↔ a.Marked ∧ b.Marked := Iff.rfl

@[simp]
theorem marked_parens (a : Code) : (parens a).Marked ↔ a.Marked := Iff.rfl

@[simp]
theorem marked_brackets (a : Code) : (brackets a).Marked ↔ a.Marked := Iff.rfl

@[simp]
theorem marked_braces (a : Code) : (braces a).Marked ↔ a.Marked := Iff.rfl

theorem marked_separated {separator : String} (hseparator : IsWord separator) {items : List Code} :
    (separated separator items).Marked ↔ ∀ a ∈ items, a.Marked := by
  induction items with
  | nil => simp [separated]
  | cons a items ih =>
      cases items with
      | nil => simp [separated]
      | cons b items => simp [separated, hseparator, ih]

@[simp]
theorem marked_list {items : List Code} : (list items).Marked ↔ ∀ a ∈ items, a.Marked :=
  marked_separated (by decide)

@[simp]
theorem marked_call {f : String} {arguments : List Code} :
    (call f arguments).Marked ↔ IsWord f ∧ ∀ a ∈ arguments, a.Marked :=
  and_congr_right fun _ => marked_separated (by decide)

@[simp]
theorem marked_function {parameters : String} {body : Code} :
    (function parameters body).Marked ↔ IsWord parameters ∧ body.Marked := by
  simp +decide [function]

@[simp]
theorem marked_returning {parameters : String} {value : Code} :
    (returning parameters value).Marked ↔ IsWord parameters ∧ value.Marked := by
  simp +decide [returning]

@[simp]
theorem marked_immediate {body : Code} : (immediate body).Marked ↔ body.Marked := by
  simp +decide [immediate]

@[simp]
theorem marked_concatenation {items : List Code} : (concatenation items).Marked ↔ ∀ a ∈ items, a.Marked := by
  simp +decide [concatenation]

@[simp]
theorem marked_operand (x : Float) : (operand x).Marked := by
  unfold operand
  split <;> trivial

end Code

open Code

section

variable {value : Code}

theorem marked_listCode (l : ValueList) (h : value.Marked) : (listCode l value).Marked := by
  have hequality : IsWord (if l.negated then "!==" else "===") := by split <;> decide
  have htests (tests : List Code) (ht : ∀ t ∈ tests, t.Marked) :
      (if tests.isEmpty then word (if l.negated then "true" else "false")
        else parens (separated (if l.negated then "&&" else "||") tests)).Marked := by
    have hempty : IsWord (if l.negated then "true" else "false") := by split <;> decide
    have hjoin : IsWord (if l.negated then "&&" else "||") := by split <;> decide
    split
    · exact hempty
    · exact (marked_separated hjoin).mpr ht
  apply htests
  cases l.values with
  | numbers values =>
      refine List.forall_mem_append.mpr ⟨?_, by simp +decide [numeric, h, hequality]⟩
      split <;> simp +decide [isNumber, numeric, h]
  | strings values => simp +decide [h, hequality]

theorem marked_boundsCode (i : Interval Float) (h : value.Marked) : (boundsCode i value).Marked := by
  have hbound {comparison : String} (hcomparison : IsWord comparison) (bound : Option Float) :
      ∀ t ∈ (bound.map (boundCode value comparison)).toList, t.Marked := by
    intro t ht
    obtain ⟨x, -, rfl⟩ := Option.map_eq_some_iff.mp (Option.mem_toList.mp ht)
    simp +decide [boundCode, numeric, h, hcomparison]
  have hlow : IsWord (if i.minInclusive then ">=" else ">") := by split <;> decide
  have hhigh : IsWord (if i.maxInclusive then "<=" else "<") := by split <;> decide
  simp only [boundsCode]
  split
  · simp +decide [isNumber, numeric, h]
  · exact (marked_separated (by decide)).mpr
      (List.forall_mem_append.mpr ⟨hbound hlow i.min, hbound hhigh i.max⟩)

theorem marked_rangeCode (range : Range) (h : value.Marked) : (rangeCode range value).Marked := by
  cases range with
  | numbers i => exact marked_boundsCode i h
  | spans i => exact marked_boundsCode _ h

theorem marked_operationCode (step : Operation × Float) {subject : Code} (h : subject.Marked) :
    (operationCode subject step).Marked := by
  obtain ⟨op, x⟩ := step
  cases op <;> simp +decide [operationCode, h]

theorem marked_arithmeticCode (a : Arithmetic) (h : value.Marked) : (arithmeticCode a value).Marked := by
  have hfold (steps : List (Operation × Float)) (subject : Code) (hs : subject.Marked) :
      (steps.foldl operationCode subject).Marked := by
    induction steps generalizing subject with
    | nil => exact hs
    | cons step steps ih => exact ih _ (marked_operationCode step hs)
  have hsymbol : IsWord (comparisonSymbol a.comparison) := by
    cases a.comparison <;> decide
  have hvalue : (numeric value).Marked := by simp +decide [numeric, h]
  simp only [arithmeticCode, marked_parens]
  split <;> simp +decide [isNumber, hvalue, hfold, hsymbol]

theorem marked_keyCode (key : LookupKey) : (keyCode key).Marked := by
  cases key with
  | fixed key =>
      refine ⟨(by decide : IsWord "var k="), ?_⟩
      split <;> simp +decide
  | parameter name suffix =>
      by_cases h : suffix.isEmpty <;> simp +decide [keyCode, rawValue, parameter, h]

variable {r : Registry} {s : Scope} (hr : r.IsBuiltIn)

include hr

theorem marked_dispatch (strategy : Strategy) (depth : Nat) (arguments : List Code) {builtIn : Unit → Code}
    (h : (builtIn ()).Marked) : (dispatch r strategy depth arguments builtIn).Marked := by
  rw [dispatch, Code.Marked]
  rcases hkind : r.find? strategy.kind with _ | _ | host
  · exact (by decide : IsWord "undefined")
  · exact h
  · exact absurd hkind (hr _ host)

theorem marked_formatterCode (format : Formatter) (h : value.Marked) : (formatterCode r format value).Marked := by
  refine marked_dispatch hr _ _ _ ?_
  cases format with
  | letterCase mode => cases mode <;> simp +decide [builtInFormatter, plainText, caseFunction, h]
  | _ => simp +decide [builtInFormatter, plainText, rawValue, h]

theorem marked_argumentCode (position : Nat) (a : LookupArgument) : (argumentCode r position a).Marked := by
  have hformat (f : Formatter) : (formatterCode r f (word "v")).Marked :=
    marked_formatterCode hr f (by simp +decide)
  rcases a with _ | s | ⟨name, _ | format⟩ <;>
    simp +decide [argumentCode, setArgument, parameter, hformat]

theorem marked_argumentsCode (position : Nat) (arguments : List LookupArgument) :
    (argumentsCode r position arguments).Marked := by
  induction arguments generalizing position with
  | nil => trivial
  | cons a arguments ih => exact ⟨marked_argumentCode hr position a, ih (position + 1)⟩

theorem marked_evaluatorCode (e : Evaluator) : (evaluatorCode r e).Marked := by
  refine marked_dispatch hr _ _ _ ?_
  cases e <;> simp +decide [builtInEvaluator, parameter, marked_keyCode, marked_argumentsCode hr]

theorem marked_conditionCode {deeper : Condition → Code → Code}
    (hdeeper : ∀ c value, value.Marked → (deeper c value).Marked) (depth : Nat) (h : value.Marked)
    (c : Condition) : (conditionCode r s deeper depth value c).Marked := by
  induction c with
  | connective left connective right ihl ihr =>
      have hsymbol : IsWord (connectiveSymbol connective) := by cases connective <;> decide
      refine marked_dispatch hr _ _ _ ?_
      simp [ihl, ihr, hsymbol]
  | stored space key =>
      refine marked_dispatch hr _ _ _ ?_
      split
      · exact hdeeper _ value h
      · exact (by decide : IsWord "false")
  | arithmetic a => exact marked_dispatch hr _ _ _ (marked_arithmeticCode a h)
  | range range => exact marked_dispatch hr _ _ _ (marked_rangeCode range h)
  | oneOf l => exact marked_dispatch hr _ _ _ (marked_listCode l h)
  | always => exact marked_dispatch hr _ _ _ (by decide : IsWord "true")
  | plural | host => exact marked_dispatch hr _ _ _ (by decide : IsWord "undefined")

theorem marked_storedCode (n : Nat) (c : Condition) (h : value.Marked) : (storedCode r s n c value).Marked := by
  induction n generalizing c value with
  | zero => exact (by decide : IsWord "false")
  | succ n ih => exact marked_conditionCode hr (fun c value h => ih c h) _ h c

theorem marked_testBoth (c : Condition) : (testBoth r s c).Marked := by
  have htest {name : String} (hname : IsWord name) : (caseTest r s c (word name)).Marked := by
    have hword : (word name).Marked := hname
    exact marked_conditionCode hr (fun c _ h => marked_storedCode hr _ c h) 0 hword c
  simp +decide [testBoth, htest]

theorem marked_expanderCode (x : Expander) {wrapper content : Code} (hwrapper : wrapper.Marked)
    (hcontent : content.Marked) : (expanderCode r x wrapper content).Marked := by
  refine marked_dispatch hr _ _ _ ?_
  cases x <;> simp +decide [hwrapper, hcontent]

theorem marked_casesCode {cs : List BoundCase} (h : ∀ c ∈ cs, (partsCode r s c.body).Marked) :
    (casesCode r s cs).Marked := by
  induction cs with
  | nil =>
      rw [casesCode]
      trivial
  | cons c cs ih =>
      obtain ⟨isOpen, spelling, condition, e⟩ := c
      rw [List.forall_mem_cons] at h
      rw [casesCode]
      simp +decide [marked_testBoth hr, h.1, ih h.2]

omit hr in
theorem partCodes_eq_map (e : BoundExpression) : partCodes r s e = e.map (partCode r s) := by
  induction e with
  | nil => rw [partCodes, List.map_nil]
  | cons p e ih => rw [partCodes, List.map_cons, ih]

theorem marked_partsCode (e : BoundExpression) : (partsCode r s e).Marked := by
  induction e using BoundExpression.induction with
  | step e ih =>
      have hformat (f : Formatter) : (formatterCode r f (word "v")).Marked :=
        marked_formatterCode hr f (by simp +decide)
      have hevaluator := marked_evaluatorCode hr
      have hpart : ∀ p ∈ e, (partCode r s p).Marked := by
        intro p hp
        cases p with
        | text content =>
            rw [partCode]
            simp +decide
        | parameter ref evaluator format =>
            rw [partCode]
            simp +decide [hevaluator, hformat]
        | switch subject evaluator format template cs nullCase =>
            have hcases := marked_casesCode hr fun c hc =>
              ih _ hp c.body (List.mem_append_left _ (List.mem_map_of_mem hc))
            have hnull (b : BoundExpression) (hb : nullCase = some b) :=
              ih _ hp b (List.mem_append_right _ (Option.mem_toList.mpr hb))
            rcases format with _ | format <;> rcases nullCase with _ | b <;>
              simp +decide [partCode, hevaluator, hformat, hcases, hnull]
        | group name evaluator expander content =>
            have hbody (b : BoundExpression) (hb : content = some b) :=
              ih _ hp b (Option.mem_toList.mpr hb)
            have hexpander : (expanderCode r expander (word "p") (word "i")).Marked :=
              marked_expanderCode hr expander (by simp +decide) (by simp +decide)
            rcases content with _ | b <;>
              simp +decide [partCode, hevaluator, hexpander, hbody, rawValue]
        | custom node part =>
            rw [partCode]
            exact marked_dispatch hr _ _ _ (by decide : IsWord "undefined")
      have hparts : ∀ a ∈ partCodes r s e, a.Marked := by
        rw [partCodes_eq_map]
        exact List.forall_mem_map.mpr hpart
      unfold partsCode together
      split
      · trivial
      next code hcode => exact hparts code (by simp [hcode])
      · exact marked_concatenation.mpr hparts

theorem marked_entryCode (e : BoundExpression) (missing : List StrategyKind) :
    (entryCode r s e missing).Marked := by
  unfold entryCode
  split
  · trivial
  · trivial
  · refine marked_returning.mpr ⟨by decide, ?_⟩
    split
    · exact marked_partsCode hr e
    · simp [placeholder]

end

/-- Whatever texts, names, formats, keys and conditions a pattern is bound to, the built-in generators write
code that is read from left to right without a rest: no literal and no bracket is open at its end, each
bracket closes the last that was opened, and each literal in double quotes is a string of JSON that spells
the text it was written for. -/
theorem run_source_builtIns (kinds : List StrategyKind) (s : Scope) (e : BoundExpression) :
    let r := Registry.builtIns kinds
    Reader.run {} (generate r s e).source.toList =
      some { place := .code, opened := [], found := (entryCode r s e (findings r s e).missing).literals } := by
  intro r
  change Reader.run {} (String.ofList (entryCode r s e (findings r s e).missing).chars).toList = _
  rw [String.toList_ofList]
  exact Reader.run_chars [] [] (marked_entryCode (Registry.isBuiltIn_builtIns kinds) e _)

end Phrasebook.Script
