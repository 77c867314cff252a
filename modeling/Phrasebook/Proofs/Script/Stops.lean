import Phrasebook.Proofs.Evaluation.Traversal
import Phrasebook.Script.Findings

namespace Phrasebook

namespace BoundExpression

variable {p : Condition → Bool}

theorem exists_of_anyInBody {b : Option BoundExpression}
    (hb : ∀ e ∈ b, e.anyCondition p = true → ∃ c, p c = true) (h : anyInBody p b = true) : ∃ c, p c = true := by
  cases b with
  | none => cases h
  | some e => exact hb e rfl h

theorem exists_of_anyCondition_cases {cs : List BoundCase}
    (hcs : ∀ c ∈ cs, anyCondition p c.body = true → ∃ c, p c = true) (h : BoundCase.anyCondition p cs = true) :
    ∃ c, p c = true := by
  induction cs with
  | nil => cases h
  | cons c cs ih =>
      obtain ⟨isOpen, spelling, condition, body⟩ := c
      rw [List.forall_mem_cons] at hcs
      rw [BoundCase.anyCondition, Bool.or_eq_true, Bool.or_eq_true] at h
      rcases h with (h | h) | h
      · exact ⟨_, h⟩
      · exact hcs.1 h
      · exact ih hcs.2 h

theorem exists_of_anyCondition {e : BoundExpression} (h : e.anyCondition p = true) : ∃ c, p c = true := by
  induction e using BoundExpression.induction with
  | step e ih =>
      have hpart : ∀ q ∈ e, q.anyCondition p = true → ∃ c, p c = true := by
        intro q hq h
        cases q with
        | switch subject evaluator format template cs nullCase =>
            rw [BoundPart.anyCondition, Bool.or_eq_true] at h
            rcases h with h | h
            · exact exists_of_anyCondition_cases (fun c hc =>
                ih _ hq c.body (List.mem_append_left _ (List.mem_map_of_mem hc))) h
            · exact exists_of_anyInBody (fun b hb =>
                ih _ hq b (List.mem_append_right _ (Option.mem_toList.mpr hb))) h
        | group name evaluator expander content =>
            exact exists_of_anyInBody (fun b hb => ih _ hq b (Option.mem_toList.mpr hb)) h
        | _ => cases h
      clear ih
      induction e with
      | nil => cases h
      | cons q e ih =>
          rw [List.forall_mem_cons] at hpart
          rw [anyCondition, Bool.or_eq_true] at h
          exact h.elim hpart.1 fun h => ih h hpart.2

end BoundExpression

namespace Script

variable {r : Registry} {s : Scope}

/-- A condition is stored in which a duration is out of range. -/
def Scope.HasOverflow (s : Scope) : Prop :=
  ∃ books ∈ s.lookup, ∃ space key, ∃ text ∈ books.store.find? space key s.language,
    books.dialect.condition .switchCase text = .error .overflow

theorem Scope.hasOverflow_of_stopsOn {space : Option String} {key : String} (h : s.stopsOn space key = true) :
    s.HasOverflow := by
  unfold stopsOn at h
  split at h
  next e hstored =>
    cases of_decide_eq_true h
    obtain ⟨books, hbooks, hread⟩ := Option.bind_eq_some_iff.mp hstored
    obtain ⟨text, htext, hread⟩ := Option.bind_eq_some_iff.mp hread
    obtain ⟨-, hread⟩ := Option.ite_none_left_eq_some.mp hread
    exact ⟨books, hbooks, _, _, text, htext, Option.some.inj hread⟩
  next => cases h

theorem hasOverflow_of_conditionStops {deeper : Condition → Bool} (hdeeper : ∀ c, deeper c = true → s.HasOverflow)
    {c : Condition} (h : conditionStops r s deeper c = true) : s.HasOverflow := by
  induction c with
  | connective left connective right ihl ihr =>
      rw [conditionStops, Bool.and_eq_true, Bool.or_eq_true] at h
      exact h.2.elim ihl ihr
  | stored space key =>
      rw [conditionStops, Bool.and_eq_true, Bool.or_eq_true] at h
      rcases h.2 with h | h
      · exact Scope.hasOverflow_of_stopsOn h
      · cases hfound : s.condition? space key with
        | none =>
            rw [hfound] at h
            cases h
        | some c =>
            rw [hfound] at h
            exact hdeeper c h
  | _ => cases h

theorem hasOverflow_of_storedStops {n : Nat} {c : Condition} (h : storedStops r s n c = true) : s.HasOverflow := by
  induction n generalizing c with
  | zero => cases h
  | succ n ih => exact hasOverflow_of_conditionStops (fun _ => ih) h

/-- Whatever a pattern is bound to, only a stored condition stops the program while its script is written. -/
theorem hasOverflow_of_stops {e : BoundExpression} (h : stops r s e = true) : s.HasOverflow := by
  obtain ⟨c, hc⟩ := BoundExpression.exists_of_anyCondition h
  exact hasOverflow_of_conditionStops (fun _ => hasOverflow_of_storedStops) hc

end Script

end Phrasebook
