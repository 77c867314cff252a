import Phrasebook.Proofs.Condition.Rules
import Phrasebook.Proofs.Dialect.Binding

namespace Phrasebook

def BoundPart.conditions : BoundPart → List Condition
  | .switch _ _ _ _ cases _ => cases.map BoundCase.condition
  | _ => []

/-- A condition without anything of a host. -/
def Condition.BuiltIn : Condition → Prop
  | .connective left _ right => left.BuiltIn ∧ right.BuiltIn
  | .host _ => False
  | _ => True

namespace Dialect

theorem builtIn_of_stored? {s : List Char} {c : Condition} (h : Condition.stored? s = some c) : c.BuiltIn := by
  unfold Condition.stored? at h
  split at h
  · split at h
    · cases h
    · split at h
      · cases h
        trivial
      · cases h
        trivial
  · cases h

theorem builtIn_of_acceptCondition? {rule : ConditionRule} (hrule : ∀ f, rule ≠ .host f) {s : List Char}
    {c : Condition} (h : acceptCondition? rule s = .ok (some c)) : c.BuiltIn := by
  cases rule with
  | host f => exact (hrule f rfl).elim
  | connective => cases h
  | takeAll =>
      obtain ⟨-, ⟨⟩⟩ := Option.ite_none_right_eq_some.mp (Except.ok.inj h)
      trivial
  | stored => exact builtIn_of_stored? (Except.ok.inj h)
  | interval =>
      rw [acceptCondition?] at h
      split at h
      · obtain ⟨_, -, rfl⟩ := Option.map_eq_some_iff.mp (Except.ok.inj h)
        trivial
      · cases h
  | arithmetic | valueList | plural =>
      obtain ⟨_, -, rfl⟩ := Option.map_eq_some_iff.mp (Except.ok.inj h)
      trivial

variable {C : Condition → Prop}

/-- What connectives keep and every rule ensures holds of all conditions. -/
theorem conditionFrom_ensures {rules : List ConditionRule}
    (hconnective : ∀ left connective right, C left → C right → C (.connective left connective right))
    (hrules : ∀ rule ∈ rules, ∀ s, ∀ c, acceptCondition? rule s = .ok (some c) → C c) {site : Site} {s : List Char}
    {pending : List ConditionRule} (hpending : ∀ rule ∈ pending, rule ∈ rules) {c : Condition}
    (h : conditionFrom rules site s pending = .ok c) : C c := by
  induction hn : s.length using Nat.strong_induction_on generalizing s site pending c with
  | h n ihn =>
    subst hn
    induction pending with
    | nil =>
        rw [conditionFrom] at h
        cases h
    | cons rule pending ih =>
        rw [List.forall_mem_cons] at hpending
        by_cases hrule : rule = .connective
        · subst hrule
          rw [conditionFrom_connective] at h
          split at h
          · exact ih hpending.2 h
          next left connective right hsplit =>
            simp only [bind_eq_ok_iff, pure_eq_ok_iff] at h
            obtain ⟨l, hl, r, hr, rfl⟩ := h
            obtain ⟨hleft, hright⟩ := Connective.split?_length_lt hsplit
            have hwhole := Connective.stripParentheses_length_le s
            have hleft' := Connective.stripParentheses_length_le left
            have hright' := Connective.stripParentheses_length_le right
            exact hconnective l connective r (ihn _ (by omega) (fun _ h => h) hl rfl)
              (ihn _ (by omega) (fun _ h => h) hr rfl)
        · rw [conditionFrom_cons hrule] at h
          obtain ⟨found, haccept, h⟩ := bind_eq_ok_iff.mp h
          cases found with
          | none => exact ih hpending.2 h
          | some found =>
              cases h
              exact hrules rule hpending.1 s c haccept

theorem condition_ensures {d : Dialect}
    (hconnective : ∀ left connective right, C left → C right → C (.connective left connective right))
    (hrules : ∀ rule ∈ d.conditions, ∀ s, ∀ c, acceptCondition? rule s = .ok (some c) → C c) {site : Site}
    {text : String} {c : Condition} (h : d.condition site text = .ok c) : C c :=
  conditionFrom_ensures hconnective hrules (fun _ h => h) h

theorem condition_builtIn {d : Dialect} (hd : ∀ accept, .host accept ∉ d.conditions) {site : Site}
    {text : String} {c : Condition} (h : d.condition site text = .ok c) : c.BuiltIn := by
  refine condition_ensures (fun _ _ _ hl hr => ⟨hl, hr⟩) (fun rule hrule s c hc => ?_) h
  refine builtIn_of_acceptCondition? ?_ hc
  rintro f rfl
  exact hd f hrule

theorem standard_condition_builtIn {site : Site} {text : String} {c : Condition}
    (h : standard.condition site text = .ok c) : c.BuiltIn :=
  condition_builtIn (by simp [standard, withConditions]) h

section

variable {d : Dialect} (hC : ∀ site text c, d.condition site text = .ok c → C c)

include hC

theorem bindCases_ensures {cases : List Case} {cs : List BoundCase} (h : d.bindCases cases = .ok cs) :
    ∀ c ∈ cs, C c.condition := by
  induction cases generalizing cs with
  | nil =>
      cases h
      nofun
  | cons c cases ih =>
      obtain ⟨condition, body, cs', hcondition, -, hcs', rfl⟩ := bindCases_cons_eq_ok_iff.mp h
      exact List.forall_mem_cons.mpr ⟨hC _ _ _ hcondition, ih hcs'⟩

theorem numberCases_ensures (halways : C .always) {template : String} {last number : Nat}
    {cases cs : List BoundCase} (hcases : ∀ c ∈ cases, C c.condition)
    (h : d.numberCases template last number cases = .ok cs) : ∀ c ∈ cs, C c.condition := by
  induction cases generalizing number cs with
  | nil =>
      cases h
      nofun
  | cons c cases ih =>
      rw [List.forall_mem_cons] at hcases
      rw [numberCases_cons_eq_ok_iff] at h
      split at h
      · obtain ⟨spelling, condition, cs', hcondition, hcs', rfl⟩ := h
        refine List.forall_mem_cons.mpr ⟨?_, ih hcases.2 hcs'⟩
        split at hcondition
        · obtain ⟨-, rfl⟩ := hcondition
          exact halways
        · exact hC _ _ _ hcondition.2
      · obtain ⟨cs', hcs', rfl⟩ := h
        exact List.forall_mem_cons.mpr ⟨hcases.1, ih hcases.2 hcs'⟩

theorem bindPart_ensures (halways : C .always) {p : Part} {q : BoundPart} (h : d.bindPart p = .ok q) :
    ∀ c ∈ q.conditions, C c := by
  cases p with
  | switch subject template cases nullCase =>
      obtain ⟨evaluator, formatter, cs, n, cs', -, -, hcs, -, hcs', rfl⟩ := bindPart_switch_eq_ok_iff.mp h
      have hbound := bindCases_ensures hC hcs
      refine List.forall_mem_map.mpr fun c hc => ?_
      cases template with
      | none =>
          cases hcs'
          exact hbound c (mem_openCasesLast.mp hc)
      | some template =>
          obtain ⟨numbered, hnumbered, rfl⟩ := map_eq_ok_iff.mp hcs'
          exact numberCases_ensures hC halways hbound hnumbered c (mem_openCasesLast.mp hc)
  | text s =>
      cases h
      nofun
  | reference ref =>
      obtain ⟨evaluator, formatter, -, -, rfl⟩ := bindPart_reference_eq_ok_iff.mp h
      nofun
  | group name body =>
      obtain ⟨evaluator, b, -, -, rfl⟩ := bindPart_group_eq_ok_iff.mp h
      nofun
  | custom node =>
      obtain ⟨part, -, rfl⟩ := bindPart_custom_eq_ok_iff.mp h
      nofun

end

end Dialect

end Phrasebook
