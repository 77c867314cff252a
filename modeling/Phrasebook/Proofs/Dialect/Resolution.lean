import Phrasebook.Proofs.Condition.Rules
import Phrasebook.Proofs.Dialect.Binding

namespace Phrasebook

namespace Dialect

variable {d : Dialect}

def Accepts (d : Dialect) (s : String) : Prop :=
  Connective.split? 0 (Connective.stripParentheses s.toList) = none ∧
    (d.conditions.findSomeM? (acceptCondition? · s.toList)).toOption.any Option.isSome = true

instance (s : String) : Decidable (d.Accepts s) :=
  inferInstanceAs (Decidable (_ ∧ _))

theorem Accepts.exists_condition {s : String} (h : d.Accepts s) (site : Site) :
    ∃ c, d.condition site s = .ok c := by
  obtain ⟨found, hfound, hsome⟩ := any_toOption_iff.mp h.2
  obtain ⟨c, rfl⟩ := Option.isSome_iff_exists.mp hsome
  refine ⟨c, ?_⟩
  rw [condition, conditionFrom_undivided _ _ fun _ => h.1, bind_elim_eq_ok_iff]
  exact hfound

theorem standard_condition_empty : standard.condition .switchCase "" = .ok .always := by
  have hrules : standard.conditions =
      [.takeAll, .connective, .stored, .arithmetic, .interval, .plural, .valueList] := rfl
  rw [condition, hrules, conditionFrom]
  · rfl
  · rintro ⟨⟩

/-- What a part has to name for it to be bound, apart from what is named inside it. -/
def Resolves (d : Dialect) : Part → Prop
  | .text _ => True
  | .reference ref =>
    (d.evaluator .parameter ref).isOk = true ∧ (d.formatter .parameter ref.format).isOk = true
  | .switch subject template cases _ =>
    (d.evaluator .switch subject).isOk = true ∧ (d.formatter .switch subject.format).isOk = true ∧
      template = none ∧ ∀ c ∈ cases, d.Accepts (caseText c)
  | .group name _ => (d.evaluator .group { name }).isOk = true
  | .custom node => (d.customPart node).isOk = true

instance : DecidablePred d.Resolves := fun p =>
  match p with
  | .text _ => inferInstanceAs (Decidable True)
  | .reference _ => inferInstanceAs (Decidable (_ ∧ _))
  | .switch .. => inferInstanceAs (Decidable (_ ∧ _ ∧ _ ∧ _))
  | .group .. => inferInstanceAs (Decidable (_ = true))
  | .custom _ => inferInstanceAs (Decidable (_ = true))

theorem exists_of_isOk {ε α : Type} {x : Except ε α} (h : x.isOk = true) : ∃ a, x = .ok a := by
  cases x with
  | error => cases h
  | ok a => exact ⟨a, rfl⟩

theorem exists_bindCases {cases : List Case} (haccepts : ∀ c ∈ cases, d.Accepts (caseText c))
    (hbodies : ∀ c ∈ cases, ∃ b, d.bind c.body = .ok b) : ∃ cs, d.bindCases cases = .ok cs := by
  induction cases with
  | nil => exact ⟨[], rfl⟩
  | cons c cases ih =>
      rw [List.forall_mem_cons] at haccepts hbodies
      obtain ⟨condition, hcondition⟩ := haccepts.1.exists_condition .switchCase
      obtain ⟨b, hb⟩ := hbodies.1
      obtain ⟨cs, hcs⟩ := ih haccepts.2 hbodies.2
      exact ⟨_, bindCases_cons_eq_ok_iff.mpr ⟨condition, b, cs, hcondition, hb, hcs, rfl⟩⟩

theorem exists_bindNullCase {nullCase : Option NullCase} (h : ∀ n ∈ nullCase, ∃ b, d.bind n.body = .ok b) :
    ∃ b, d.bindNullCase nullCase = .ok b := by
  rcases nullCase with _ | ⟨position, body⟩
  · exact ⟨none, rfl⟩
  · obtain ⟨b, hb⟩ := h ⟨position, body⟩ rfl
    exact ⟨some b, map_eq_ok_iff.mpr ⟨b, hb, rfl⟩⟩

theorem exists_bindBody {body : Option Expression} (h : ∀ e ∈ body, ∃ b, d.bind e = .ok b) :
    ∃ b, d.bindBody body = .ok b := by
  cases body with
  | none => exact ⟨none, rfl⟩
  | some e =>
      obtain ⟨b, hb⟩ := h e rfl
      exact ⟨some b, map_eq_ok_iff.mpr ⟨b, hb, rfl⟩⟩

theorem exists_bindPart {p : Part} (h : d.Resolves p) (hbodies : ∀ e ∈ p.bodies, ∃ b, d.bind e = .ok b) :
    ∃ q, d.bindPart p = .ok q := by
  cases p with
  | text s => exact ⟨.text s, rfl⟩
  | reference ref =>
      obtain ⟨evaluator, he⟩ := exists_of_isOk h.1
      obtain ⟨formatter, hf⟩ := exists_of_isOk h.2
      exact ⟨_, bindPart_reference_eq_ok_iff.mpr ⟨evaluator, formatter, he, hf, rfl⟩⟩
  | switch subject template cases nullCase =>
      obtain ⟨hevaluator, hformatter, rfl, haccepts⟩ := h
      obtain ⟨evaluator, he⟩ := exists_of_isOk hevaluator
      obtain ⟨formatter, hf⟩ := exists_of_isOk hformatter
      obtain ⟨cs, hcs⟩ := exists_bindCases haccepts fun c hc =>
        hbodies c.body (Part.mem_bodies_switch.mpr (.inl ⟨c, hc, rfl⟩))
      obtain ⟨n, hn⟩ := exists_bindNullCase fun n hn =>
        hbodies n.body (Part.mem_bodies_switch.mpr (.inr ⟨n, hn, rfl⟩))
      exact ⟨_, bindPart_switch_eq_ok_iff.mpr ⟨evaluator, formatter, cs, n, _, he, hf, hcs, hn, rfl, rfl⟩⟩
  | group name body =>
      obtain ⟨evaluator, he⟩ := exists_of_isOk h
      obtain ⟨b, hb⟩ := exists_bindBody fun e he => hbodies e (Part.mem_bodies_group.mpr he)
      exact ⟨_, bindPart_group_eq_ok_iff.mpr ⟨evaluator, b, he, hb, rfl⟩⟩
  | custom node =>
      obtain ⟨part, hpart⟩ := exists_of_isOk h
      exact ⟨_, bindPart_custom_eq_ok_iff.mpr ⟨part, hpart, rfl⟩⟩

/-- An expression is bound if everything that its parts name is found. -/
theorem exists_bind {e : Expression} (h : ∀ p, e.Contains p → d.Resolves p) : ∃ b, d.bind e = .ok b := by
  induction e using Expression.induction with
  | step e ih =>
      have hparts : ∀ p ∈ e, ∃ q, d.bindPart p = .ok q := fun p hp =>
        exists_bindPart (h p (.here hp)) fun b hb => ih p hp b hb fun q hq => h q (.inside hp hb hq)
      clear ih h
      induction e with
      | nil => exact ⟨[], rfl⟩
      | cons p e ih =>
          rw [List.forall_mem_cons] at hparts
          obtain ⟨q, hq⟩ := hparts.1
          obtain ⟨b, hb⟩ := ih hparts.2
          exact ⟨q :: b, bind_cons_eq_ok_iff.mpr ⟨q, b, hq, hb, rfl⟩⟩

theorem exists_compile {pattern : String} {e : Expression} (he : Expression.parse pattern = .ok e)
    (h : ∀ p, e.Contains p → standard.Resolves p) :
    ∃ c, standard.compile pattern = .ok c ∧ c.expression = e := by
  obtain ⟨b, hb⟩ := exists_bind h
  exact ⟨_, standard_compile_eq_ok_iff.mpr ⟨e, b, he, hb, rfl⟩, rfl⟩

end Dialect

end Phrasebook
