import Phrasebook.Proofs.Dialect.Conditions

namespace Phrasebook

def BoundPart.BoundTo (E : Evaluator → Prop) (C : Condition → Prop) (P : CustomPart → Prop) : BoundPart → Prop
  | .text _ => True
  | .parameter _ e _ => E e
  | .switch _ e _ _ cases _ => E e ∧ ∀ c ∈ cases, C c.condition
  | .group _ e _ _ => E e
  | .custom _ part => P part

structure BuiltInsEnsure (E : Evaluator → Prop) (C : Condition → Prop) : Prop where
  evaluator : ∀ e, (∀ host, e ≠ .host host) → E e
  condition : ∀ c, c.BuiltIn → C c
  connective : ∀ left connective right, C left → C right → C (.connective left connective right)

namespace Dialect

/-- All that hosts bring along to a dialect is of some kind. -/
structure HostsEnsure (d : Dialect) (E : Evaluator → Prop) (C : Condition → Prop) (P : CustomPart → Prop) :
    Prop where
  evaluators : ∀ accept, .host accept ∈ d.evaluators → ∀ ref, ∀ e ∈ accept ref, E e
  conditions : ∀ accept, .host accept ∈ d.conditions → ∀ s, ∀ c ∈ accept s, C c
  customParts : ∀ rule ∈ d.customParts, ∀ node, ∀ part ∈ rule node, P part

variable {d : Dialect} {E E' : Evaluator → Prop} {C C' : Condition → Prop} {P P' : CustomPart → Prop}

theorem HostsEnsure.imp (h : d.HostsEnsure E C P) (hE : ∀ e, E e → E' e) (hC : ∀ c, C c → C' c)
    (hP : ∀ part, P part → P' part) : d.HostsEnsure E' C' P' where
  evaluators accept haccept ref e he := hE e (h.evaluators accept haccept ref e he)
  conditions accept haccept s c hc := hC c (h.conditions accept haccept s c hc)
  customParts rule hrule node part hpart := hP part (h.customParts rule hrule node part hpart)

theorem standard_hostsEnsure : standard.HostsEnsure E C P where
  evaluators accept h := by simp [standard, withConditions, empty] at h
  conditions accept h := by simp [standard, withConditions, empty] at h
  customParts rule h := by cases h

namespace HostsEnsure

variable (hb : BuiltInsEnsure E C) (hd : d.HostsEnsure E C P)

include hb hd

theorem condition (site : Site) (text : String) (c : Condition) (h : d.condition site text = .ok c) : C c := by
  refine condition_ensures hb.connective (fun rule hrule s c hc => ?_) h
  by_cases hhost : ∃ accept, rule = .host accept
  · obtain ⟨accept, rfl⟩ := hhost
    exact hd.conditions accept hrule _ c (Except.ok.inj hc)
  · exact hb.condition c (builtIn_of_acceptCondition? (fun f hf => hhost ⟨f, hf⟩) hc)

theorem acceptEvaluator? {rule : EvaluatorRule} (hrule : rule ∈ d.evaluators)
    {ref : Reference} {e : Evaluator} (h : d.acceptEvaluator? rule ref = .ok (some e)) : E e := by
  cases rule with
  | host accept => exact hd.evaluators accept hrule ref e (Except.ok.inj h)
  | lookup =>
      unfold Dialect.acceptEvaluator? lookup? at h
      dsimp only at h
      split at h
      · obtain ⟨_, -, ⟨⟩⟩ := map_eq_ok_iff.mp h
        exact hb.evaluator _ nofun
      · cases h
  | property =>
      simp only [Dialect.acceptEvaluator?, property?] at h
      split at h <;> cases h
      exact hb.evaluator _ nofun
  | direct =>
      cases h
      exact hb.evaluator _ nofun

theorem evaluator {site : Site} {ref : Reference} {e : Evaluator}
    (h : d.evaluator site ref = .ok e) : E e := by
  have hfrom (rules : List EvaluatorRule) (hrules : ∀ rule ∈ rules, rule ∈ d.evaluators)
      (h : d.evaluatorFrom site ref rules = .ok e) : E e := by
    induction rules with
    | nil => cases h
    | cons rule rules ih =>
        rw [List.forall_mem_cons] at hrules
        simp only [evaluatorFrom, bind_eq_ok_iff] at h
        obtain ⟨found, hfound, h⟩ := h
        cases found with
        | none => exact ih hrules.2 h
        | some e' =>
            cases h
            exact acceptEvaluator? hb hd hrules.1 hfound
  exact hfrom d.evaluators (fun _ h => h) h

theorem bindPart {p : Part} {q : BoundPart} (h : d.bindPart p = .ok q) : q.BoundTo E C P := by
  have hconditions := bindPart_ensures (condition hb hd) (hb.condition .always trivial) h
  cases p with
  | text s =>
      cases h
      trivial
  | reference ref =>
      obtain ⟨e, f, he, -, rfl⟩ := bindPart_reference_eq_ok_iff.mp h
      exact evaluator hb hd he
  | switch subject template cases nullCase =>
      obtain ⟨e, f, cs, n, cs', he, -, -, -, -, rfl⟩ := bindPart_switch_eq_ok_iff.mp h
      exact ⟨evaluator hb hd he, List.forall_mem_map.mp hconditions⟩
  | group name body =>
      obtain ⟨e, b, he, -, rfl⟩ := bindPart_group_eq_ok_iff.mp h
      exact evaluator hb hd he
  | custom node =>
      obtain ⟨part, hpart, rfl⟩ := bindPart_custom_eq_ok_iff.mp h
      obtain ⟨rule, hrule, hnode⟩ := exists_rule_of_customPart hpart
      exact hd.customParts rule hrule node part hnode

/-- Whatever a compiled pattern is bound to, at whatever depth, is of the kind that hosts ensure. -/
theorem compile {pattern : String} {c : Compiled} (h : d.compile pattern = .ok c) (q : BoundPart)
    (hq : c.bound.Contains q) : q.BoundTo E C P := by
  obtain ⟨e, b, -, hbind, rfl⟩ := compile_eq_ok_iff.mp h
  obtain ⟨p, -, hp⟩ := exists_of_contains hbind hq
  exact bindPart hb hd hp

end HostsEnsure

end Dialect

end Phrasebook
