import Phrasebook.Proofs.Distinct
import Phrasebook.Proofs.Evaluation.Traversal
import Phrasebook.Script.Findings

namespace Phrasebook.Script

/-- A kind that is met, and what is met inside it where built-in code is to be written for it. -/
def Registry.met (r : Registry) (kind : StrategyKind) (inner : List StrategyKind) : List StrategyKind :=
  kind ::
    match r.find? kind with
    | none => []
    | some .builtIn => inner
    | some (.host h) => h.needs

namespace Encounters

def formatter (r : Registry) (format : Formatter) : List StrategyKind :=
  r.met (Strategy.formatter format).kind []

def argument (r : Registry) : LookupArgument → List StrategyKind
  | .parameter _ (some format) => formatter r format
  | _ => []

def evaluator (r : Registry) (e : Evaluator) : List StrategyKind :=
  r.met (Strategy.evaluator e).kind <|
    match e with
    | .lookup _ arguments => arguments.flatMap (argument r)
    | _ => []

def condition (r : Registry) (s : Scope) (deeper : Condition → List StrategyKind) :
    Condition → List StrategyKind
  | .connective left c right =>
    r.met (Strategy.condition (.connective left c right)).kind
      (condition r s deeper left ++ condition r s deeper right)
  | .stored space key =>
    r.met (Strategy.condition (.stored space key)).kind <|
      match s.condition? space key with
      | some c => deeper c
      | none => []
  | c => r.met (Strategy.condition c).kind []

def storedCondition (r : Registry) (s : Scope) : Nat → Condition → List StrategyKind
  | 0, _ => []
  | n + 1, c => condition r s (storedCondition r s n) c

mutual

def part (r : Registry) (s : Scope) : BoundPart → List StrategyKind
  | .text _ => []
  | .parameter _ e format => evaluator r e ++ formatter r format
  | .switch _ e format _ cases nullCase =>
    evaluator r e ++ format.toList.flatMap (formatter r) ++ Encounters.cases r s cases ++
      body r s nullCase
  | .group _ e expander content =>
    evaluator r e ++ r.met (Strategy.expander expander).kind [] ++ body r s content
  | .custom node part => r.met (Strategy.customPart node part).kind []

def parts (r : Registry) (s : Scope) : List BoundPart → List StrategyKind
  | [] => []
  | p :: rest => part r s p ++ parts r s rest

def body (r : Registry) (s : Scope) : Option (List BoundPart) → List StrategyKind
  | none => []
  | some e => parts r s e

def cases (r : Registry) (s : Scope) : List BoundCase → List StrategyKind
  | [] => []
  | ⟨_, _, c, e⟩ :: rest =>
    condition r s (storedCondition r s defaultMaxDepth) c ++ parts r s e ++ cases r s rest

end

end Encounters

theorem eraseDups_concat {α : Type} [BEq α] [LawfulBEq α] (l : List α) (x : α) :
    (l ++ [x]).eraseDups = addOnce x l.eraseDups := by
  rw [eraseDups_append_singleton, addOnce]
  simp

namespace Findings

variable {r : Registry} {s : Scope}

@[simp]
theorem noteAll_nil (f : Findings) : f.noteAll r [] = f := rfl

@[simp]
theorem noteAll_append (f : Findings) (kinds kinds' : List StrategyKind) :
    f.noteAll r (kinds ++ kinds') = (f.noteAll r kinds).noteAll r kinds' := by
  simp [noteAll]

theorem noteAll_eq_eraseDups (kinds : List StrategyKind) :
    noteAll r kinds {} = ⟨(kinds.filter r.contains).eraseDups, (kinds.filter (!r.contains ·)).eraseDups⟩ := by
  induction kinds using List.reverseRecOn with
  | nil => simp
  | append_singleton kinds kind ih =>
      rw [noteAll_append, ih]
      cases h : r.contains kind with
      | true => simp [noteAll, note, h, eraseDups_concat]
      | false => simp [noteAll, note, h, eraseDups_concat]

theorem visit_eq {inner : Findings → Findings} {kinds : List StrategyKind}
    (h : ∀ f, inner f = f.noteAll r kinds) (kind : StrategyKind) (f : Findings) :
    f.visit r kind inner = f.noteAll r (r.met kind kinds) := by
  unfold visit Registry.met
  rcases hfind : r.find? kind with _ | _ | host
  · rfl
  · exact h _
  · rfl

theorem visit_id (kind : StrategyKind) (f : Findings) : f.visit r kind id = f.noteAll r (r.met kind []) := by
  have hid (f : Findings) : id f = f.noteAll r [] := rfl
  exact visit_eq hid kind f

theorem formatter_eq (format : Formatter) (f : Findings) :
    f.formatter r format = f.noteAll r (Encounters.formatter r format) :=
  visit_id _ f

theorem argument_eq (a : LookupArgument) (f : Findings) :
    argument r f a = f.noteAll r (Encounters.argument r a) := by
  rcases a with _ | _ | ⟨name, _ | format⟩
  · rfl
  · rfl
  · rfl
  · exact formatter_eq format f

theorem evaluator_eq (e : Evaluator) (f : Findings) :
    f.evaluator r e = f.noteAll r (Encounters.evaluator r e) := by
  refine visit_eq (fun f => ?_) _ f
  cases e with
  | lookup key arguments =>
      dsimp only
      induction arguments generalizing f with
      | nil => rfl
      | cons a arguments ih => simp [argument_eq, ih]
  | _ => rfl

theorem condition_eq {deeper : Condition → Findings → Findings} {deeper' : Condition → List StrategyKind}
    (h : ∀ c f, deeper c f = f.noteAll r (deeper' c)) (c : Condition) (f : Findings) :
    condition r s deeper c f = f.noteAll r (Encounters.condition r s deeper' c) := by
  induction c generalizing f with
  | connective left connective right ihl ihr =>
      refine visit_eq (fun f => ?_) _ f
      rw [ihl, ihr, noteAll_append]
  | stored space key =>
      refine visit_eq (fun f => ?_) _ f
      cases s.condition? space key with
      | none => rfl
      | some c => exact h c f
  | _ => exact visit_id _ f

theorem storedCondition_eq (n : Nat) (c : Condition) (f : Findings) :
    storedCondition r s n c f = f.noteAll r (Encounters.storedCondition r s n c) := by
  induction n generalizing c f with
  | zero => rfl
  | succ n ih => exact condition_eq ih c f

theorem body_eq {b : Option BoundExpression}
    (h : ∀ e ∈ b, ∀ f, parts r s e f = f.noteAll r (Encounters.parts r s e)) (f : Findings) :
    body r s b f = f.noteAll r (Encounters.body r s b) := by
  cases b with
  | none => rfl
  | some e => exact h e rfl f

theorem cases_eq {cs : List BoundCase}
    (h : ∀ c ∈ cs, ∀ f, parts r s c.body f = f.noteAll r (Encounters.parts r s c.body)) (f : Findings) :
    cases r s cs f = f.noteAll r (Encounters.cases r s cs) := by
  induction cs generalizing f with
  | nil => rfl
  | cons c cs ih =>
      obtain ⟨isOpen, spelling, condition, e⟩ := c
      rw [List.forall_mem_cons] at h
      rw [cases, Encounters.cases, ih h.2, h.1, condition_eq (storedCondition_eq _), noteAll_append,
        noteAll_append]

theorem parts_eq (e : BoundExpression) (f : Findings) :
    parts r s e f = f.noteAll r (Encounters.parts r s e) := by
  induction e using BoundExpression.induction generalizing f with
  | step e ih =>
      have hpart : ∀ p ∈ e, ∀ f, part r s p f = f.noteAll r (Encounters.part r s p) := by
        intro p hp f
        cases p with
        | text content => rfl
        | parameter ref evaluator format =>
            rw [part, Encounters.part, formatter_eq, evaluator_eq, noteAll_append]
        | switch subject evaluator format template cs nullCase =>
            have hcases := cases_eq fun c hc f =>
              ih _ hp c.body (List.mem_append_left _ (List.mem_map_of_mem hc)) f
            have hnull := body_eq fun b hb f =>
              ih _ hp b (List.mem_append_right _ (Option.mem_toList.mpr hb)) f
            cases format with
            | none => simp [part, Encounters.part, evaluator_eq, hcases, hnull]
            | some format =>
                simp [part, Encounters.part, evaluator_eq, formatter_eq, hcases, hnull]
        | group name evaluator expander content =>
            have hbody := body_eq fun b hb f => ih _ hp b (Option.mem_toList.mpr hb) f
            simp [part, Encounters.part, evaluator_eq, visit_id, hbody]
        | custom node part => exact visit_id _ f
      clear ih
      induction e generalizing f with
      | nil => rfl
      | cons p e ih =>
          rw [List.forall_mem_cons] at hpart
          rw [parts, Encounters.parts, hpart.1, ih _ hpart.2, noteAll_append]

end Findings

/-- What is found in an expression are the kinds met in it, each at its first place. -/
theorem findings_eq (r : Registry) (s : Scope) (e : BoundExpression) :
    findings r s e = ⟨((Encounters.parts r s e).filter r.contains).eraseDups,
      ((Encounters.parts r s e).filter (!r.contains ·)).eraseDups⟩ := by
  rw [findings, Findings.parts_eq, Findings.noteAll_eq_eraseDups]

end Phrasebook.Script
