import Phrasebook.Dialect.Binding
import Phrasebook.Proofs.Evaluation.Traversal
import Phrasebook.Proofs.Pattern.Occurrence
import Phrasebook.Proofs.Results

namespace Phrasebook

namespace Dialect

variable {d : Dialect}

theorem bindPart_switch_eq_ok_iff {subject : Reference} {template : Option String} {cases : List Case}
    {nullCase : Option NullCase} {q : BoundPart} :
    d.bindPart (.switch subject template cases nullCase) = .ok q ↔
      ∃ evaluator formatter cs n cs', d.evaluator .switch subject = .ok evaluator ∧
        d.formatter .switch subject.format = .ok formatter ∧ d.bindCases cases = .ok cs ∧
        d.bindNullCase nullCase = .ok n ∧ d.arrangeCases template cs = .ok cs' ∧
        q = .switch subject evaluator (if formatter.isDefault then none else some formatter) template
          cs' n := by
  simp only [bindPart, bind_eq_ok_iff, pure_eq_ok_iff]
  constructor
  · rintro ⟨evaluator, he, formatter, hf, cs, hcs, n, hn, cs', hcs', rfl⟩
    exact ⟨evaluator, formatter, cs, n, cs', he, hf, hcs, hn, hcs', rfl⟩
  · rintro ⟨evaluator, formatter, cs, n, cs', he, hf, hcs, hn, hcs', rfl⟩
    exact ⟨evaluator, he, formatter, hf, cs, hcs, n, hn, cs', hcs', rfl⟩

theorem bindPart_reference_eq_ok_iff {ref : Reference} {q : BoundPart} :
    d.bindPart (.reference ref) = .ok q ↔
      ∃ evaluator formatter, d.evaluator .parameter ref = .ok evaluator ∧
        d.formatter .parameter ref.format = .ok formatter ∧ q = .parameter ref evaluator formatter := by
  simp only [bindPart, bind_eq_ok_iff, pure_eq_ok_iff]
  constructor
  · rintro ⟨evaluator, he, formatter, hf, rfl⟩
    exact ⟨evaluator, formatter, he, hf, rfl⟩
  · rintro ⟨evaluator, formatter, he, hf, rfl⟩
    exact ⟨evaluator, he, formatter, hf, rfl⟩

theorem bindPart_group_eq_ok_iff {name : String} {body : Option Expression} {q : BoundPart} :
    d.bindPart (.group name body) = .ok q ↔
      ∃ evaluator b, d.evaluator .group { name } = .ok evaluator ∧ d.bindBody body = .ok b ∧
        q = .group name evaluator d.expander b := by
  simp only [bindPart, bind_eq_ok_iff, pure_eq_ok_iff]
  constructor
  · rintro ⟨evaluator, he, b, hb, rfl⟩
    exact ⟨evaluator, b, he, hb, rfl⟩
  · rintro ⟨evaluator, b, he, hb, rfl⟩
    exact ⟨evaluator, he, b, hb, rfl⟩

theorem bindPart_custom_eq_ok_iff {node : CustomNode} {q : BoundPart} :
    d.bindPart (.custom node) = .ok q ↔ ∃ part, d.customPart node = .ok part ∧ q = .custom node part := by
  rw [bindPart, map_eq_ok_iff]
  exact exists_congr fun part => and_congr_right fun _ => eq_comm

theorem exists_of_bindPart_group {p : Part} {name : String} {evaluator : Evaluator} {expander : Expander}
    {b : Option BoundExpression} (h : d.bindPart p = .ok (.group name evaluator expander b)) :
    ∃ body, p = .group name body := by
  cases p with
  | group name body =>
      obtain ⟨_, _, -, -, ⟨⟩⟩ := bindPart_group_eq_ok_iff.mp h
      exact ⟨body, rfl⟩
  | text => cases h
  | reference =>
      obtain ⟨_, _, -, -, hq⟩ := bindPart_reference_eq_ok_iff.mp h
      cases hq
  | switch =>
      obtain ⟨_, _, _, _, _, -, -, -, -, -, hq⟩ := bindPart_switch_eq_ok_iff.mp h
      cases hq
  | custom =>
      obtain ⟨_, -, hq⟩ := bindPart_custom_eq_ok_iff.mp h
      cases hq

theorem customPart_of_bindPart_custom {p : Part} {node : CustomNode} {part : CustomPart}
    (h : d.bindPart p = .ok (.custom node part)) : d.customPart node = .ok part := by
  cases p with
  | custom node =>
      obtain ⟨_, hpart, ⟨⟩⟩ := bindPart_custom_eq_ok_iff.mp h
      exact hpart
  | text => cases h
  | reference =>
      obtain ⟨_, _, -, -, hq⟩ := bindPart_reference_eq_ok_iff.mp h
      cases hq
  | switch =>
      obtain ⟨_, _, _, _, _, -, -, -, -, -, hq⟩ := bindPart_switch_eq_ok_iff.mp h
      cases hq
  | group =>
      obtain ⟨_, _, -, -, hq⟩ := bindPart_group_eq_ok_iff.mp h
      cases hq

theorem bind_cons_eq_ok_iff {p : Part} {e : Expression} {b : BoundExpression} :
    d.bind (p :: e) = .ok b ↔ ∃ q b', d.bindPart p = .ok q ∧ d.bind e = .ok b' ∧ b = q :: b' := by
  simp only [Dialect.bind, bind_eq_ok_iff, pure_eq_ok_iff]
  constructor
  · rintro ⟨q, hq, b', hb', rfl⟩
    exact ⟨q, b', hq, hb', rfl⟩
  · rintro ⟨q, b', hq, hb', rfl⟩
    exact ⟨q, hq, b', hb', rfl⟩

def caseText (c : Case) : String :=
  match c.condition with
  | some condition => spelling condition
  | none => ""

theorem bindCases_cons (c : Case) (cases : List Case) :
    d.bindCases (c :: cases) = (do
      let condition ← d.condition .switchCase (caseText c)
      let body ← d.bind c.body
      let cs ← d.bindCases cases
      return ⟨c.condition.isNone, caseText c, condition, body⟩ :: cs) := by
  obtain ⟨condition, body⟩ := c
  cases condition <;> rfl

theorem bindCases_cons_eq_ok_iff {c : Case} {cases : List Case} {cs : List BoundCase} :
    d.bindCases (c :: cases) = .ok cs ↔
      ∃ condition body cs', d.condition .switchCase (caseText c) = .ok condition ∧
        d.bind c.body = .ok body ∧ d.bindCases cases = .ok cs' ∧
        cs = ⟨c.condition.isNone, caseText c, condition, body⟩ :: cs' := by
  simp only [bindCases_cons, bind_eq_ok_iff, pure_eq_ok_iff]
  constructor
  · rintro ⟨condition, hc, b, hb, cs', hcs', rfl⟩
    exact ⟨condition, b, cs', hc, hb, hcs', rfl⟩
  · rintro ⟨condition, b, cs', hc, hb, hcs', rfl⟩
    exact ⟨condition, hc, b, hb, cs', hcs', rfl⟩

theorem numberCases_cons_eq_ok_iff {template : String} {last number : Nat} {c : BoundCase}
    {cases cs : List BoundCase} :
    d.numberCases template last number (c :: cases) = .ok cs ↔
      if c.isOpen then
        ∃ spelling condition cs', (if number = last then spelling = "" ∧ condition = .always
            else spelling = "@" ++ template ++ toString number ∧
              d.condition .templatedSwitch spelling = .ok condition) ∧
          d.numberCases template last (number + 1) cases = .ok cs' ∧
          cs = { c with spelling, condition } :: cs'
      else ∃ cs', d.numberCases template last number cases = .ok cs' ∧ cs = c :: cs' := by
  rw [numberCases]
  split
  · split
    · simp only [bind_eq_ok_iff, pure_eq_ok_iff]
      constructor
      · rintro ⟨_, rfl, cs', hcs', rfl⟩
        exact ⟨_, _, cs', ⟨rfl, rfl⟩, hcs', rfl⟩
      · rintro ⟨_, _, cs', ⟨rfl, rfl⟩, hcs', rfl⟩
        exact ⟨_, rfl, cs', hcs', rfl⟩
    · simp only [bind_eq_ok_iff, pure_eq_ok_iff]
      constructor
      · rintro ⟨condition, hc, _, rfl, cs', hcs', rfl⟩
        exact ⟨_, condition, cs', ⟨rfl, hc⟩, hcs', rfl⟩
      · rintro ⟨_, condition, cs', ⟨rfl, hc⟩, hcs', rfl⟩
        exact ⟨condition, hc, _, rfl, cs', hcs', rfl⟩
  · simp only [bind_eq_ok_iff, pure_eq_ok_iff]
    exact exists_congr fun cs' => and_congr_right fun _ => eq_comm

theorem mem_openCasesLast {c : BoundCase} {cases : List BoundCase} :
    c ∈ openCasesLast cases ↔ c ∈ cases := by
  rw [openCasesLast, List.mem_append, List.mem_filter, List.mem_filter]
  cases c.isOpen <;> simp

theorem exists_of_mem_numberCases {template : String} {last number : Nat} {cases cs : List BoundCase}
    (h : d.numberCases template last number cases = .ok cs) :
    ∀ c' ∈ cs, ∃ c ∈ cases, c'.body = c.body := by
  induction cases generalizing number cs with
  | nil =>
      cases h
      rintro c' ⟨⟩
  | cons c cases ih =>
      rw [numberCases_cons_eq_ok_iff] at h
      split at h
      · obtain ⟨spelling, condition, cs', -, hcs', rfl⟩ := h
        intro c' hc'
        rcases List.mem_cons.mp hc' with rfl | hc'
        · exact ⟨c, List.mem_cons_self, rfl⟩
        · obtain ⟨c₀, hc₀, hbody⟩ := ih hcs' c' hc'
          exact ⟨c₀, List.mem_cons_of_mem c hc₀, hbody⟩
      · obtain ⟨cs', hcs', rfl⟩ := h
        intro c' hc'
        rcases List.mem_cons.mp hc' with rfl | hc'
        · exact ⟨_, List.mem_cons_self, rfl⟩
        · obtain ⟨c₀, hc₀, hbody⟩ := ih hcs' c' hc'
          exact ⟨c₀, List.mem_cons_of_mem c hc₀, hbody⟩

theorem exists_of_mem_arrangeCases {template : Option String} {cases cs : List BoundCase}
    (h : d.arrangeCases template cases = .ok cs) : ∀ c' ∈ cs, ∃ c ∈ cases, c'.body = c.body := by
  cases template with
  | none =>
      cases h
      intro c' hc'
      exact ⟨c', mem_openCasesLast.mp hc', rfl⟩
  | some template =>
      obtain ⟨cs', hcs', rfl⟩ := map_eq_ok_iff.mp h
      intro c' hc'
      exact exists_of_mem_numberCases hcs' c' (mem_openCasesLast.mp hc')

theorem exists_of_mem_bindCases {cases : List Case} {cs : List BoundCase}
    (h : d.bindCases cases = .ok cs) : ∀ c' ∈ cs, ∃ c ∈ cases, d.bind c.body = .ok c'.body := by
  induction cases generalizing cs with
  | nil =>
      cases h
      rintro c' ⟨⟩
  | cons c cases ih =>
      obtain ⟨condition, body, cs', -, hbody, hcs', rfl⟩ := bindCases_cons_eq_ok_iff.mp h
      intro c' hc'
      rcases List.mem_cons.mp hc' with rfl | hc'
      · exact ⟨c, List.mem_cons_self, hbody⟩
      · obtain ⟨c₀, hc₀, hbody⟩ := ih hcs' c' hc'
        exact ⟨c₀, List.mem_cons_of_mem c hc₀, hbody⟩

theorem exists_of_mem_bind {e : Expression} {b : BoundExpression} (h : d.bind e = .ok b) :
    ∀ q ∈ b, ∃ p ∈ e, d.bindPart p = .ok q := by
  induction e generalizing b with
  | nil =>
      cases h
      rintro q ⟨⟩
  | cons p e ih =>
      obtain ⟨q, b', hq, hb', rfl⟩ := bind_cons_eq_ok_iff.mp h
      intro q' hq'
      rcases List.mem_cons.mp hq' with rfl | hq'
      · exact ⟨p, List.mem_cons_self, hq⟩
      · obtain ⟨p', hp', h⟩ := ih hb' q' hq'
        exact ⟨p', List.mem_cons_of_mem p hp', h⟩

theorem exists_of_mem_bodies {p : Part} {q : BoundPart} (h : d.bindPart p = .ok q) :
    ∀ b ∈ q.bodies, ∃ e ∈ p.bodies, d.bind e = .ok b := by
  intro b hb
  cases p with
  | text s =>
      cases h
      cases hb
  | reference ref =>
      obtain ⟨evaluator, formatter, -, -, rfl⟩ := bindPart_reference_eq_ok_iff.mp h
      cases hb
  | custom node =>
      obtain ⟨part, -, rfl⟩ := bindPart_custom_eq_ok_iff.mp h
      cases hb
  | group name body =>
      obtain ⟨evaluator, b', -, hb', rfl⟩ := bindPart_group_eq_ok_iff.mp h
      rw [BoundPart.bodies, Option.mem_toList] at hb
      subst hb
      cases body with
      | none => cases hb'
      | some e =>
          obtain ⟨b', hb', ⟨⟩⟩ := map_eq_ok_iff.mp hb'
          exact ⟨e, Part.mem_bodies_group.mpr rfl, hb'⟩
  | switch subject template cases nullCase =>
      obtain ⟨evaluator, formatter, cs, n, cs', -, -, hcs, hn, hcs', rfl⟩ :=
        bindPart_switch_eq_ok_iff.mp h
      rcases List.mem_append.mp hb with hb | hb
      · obtain ⟨c', hc', rfl⟩ := List.mem_map.mp hb
        obtain ⟨c, hc, hbody⟩ := exists_of_mem_arrangeCases hcs' c' hc'
        obtain ⟨c₀, hc₀, hbind⟩ := exists_of_mem_bindCases hcs c hc
        exact ⟨c₀.body, Part.mem_bodies_switch.mpr (.inl ⟨c₀, hc₀, rfl⟩), hbody ▸ hbind⟩
      · rw [Option.mem_toList] at hb
        subst hb
        rcases nullCase with _ | ⟨position, body⟩
        · cases hn
        · obtain ⟨b', hb', ⟨⟩⟩ := map_eq_ok_iff.mp hn
          exact ⟨body, Part.mem_bodies_switch.mpr (.inr ⟨_, rfl, rfl⟩), hb'⟩

/-- What stands in a bound expression is bound from what stands in the expression. -/
theorem exists_of_contains {e : Expression} {b : BoundExpression} (h : d.bind e = .ok b) {q : BoundPart}
    (hq : b.Contains q) : ∃ p, e.Contains p ∧ d.bindPart p = .ok q := by
  induction hq generalizing e with
  | here hq =>
      obtain ⟨p, hp, hbind⟩ := exists_of_mem_bind h _ hq
      exact ⟨p, .here hp, hbind⟩
  | inside hp hb _ ih =>
      obtain ⟨p', hp', hbind⟩ := exists_of_mem_bind h _ hp
      obtain ⟨e', he', hbody⟩ := exists_of_mem_bodies hbind _ hb
      obtain ⟨p, hp, hpart⟩ := ih hbody
      exact ⟨p, .inside hp' he' hp, hpart⟩

theorem exists_rule_of_customPart {node : CustomNode} {part : CustomPart}
    (h : d.customPart node = .ok part) : ∃ rule ∈ d.customParts, rule node = some part := by
  unfold customPart at h
  split at h
  next hfound =>
    cases h
    exact List.exists_of_findSome?_eq_some hfound
  next => cases h

def source (d : Dialect) (pattern : String) : String :=
  match d.transformer with
  | some t => t.encode pattern
  | none => pattern

theorem compile_eq_ok_iff {pattern : String} {c : Compiled} :
    d.compile pattern = .ok c ↔
      ∃ e b, d.parse (d.source pattern) = .ok e ∧ d.bind e = .ok b ∧
        c = ⟨pattern, e, b, d.encodes, d.transformer⟩ := by
  simp only [compile, bind_eq_ok_iff, pure_eq_ok_iff, mapError_eq_ok_iff]
  constructor
  · rintro ⟨e, he, b, hb, rfl⟩
    exact ⟨e, b, he, hb, rfl⟩
  · rintro ⟨e, b, he, hb, rfl⟩
    exact ⟨e, he, b, hb, rfl⟩

/-- Custom parts are what the rules of the dialect have for their nodes. -/
theorem exists_rule_of_compile {pattern : String} {c : Compiled} (h : d.compile pattern = .ok c)
    {node : CustomNode} {part : CustomPart} (hpart : c.bound.Contains (.custom node part)) :
    ∃ rule ∈ d.customParts, rule node = some part := by
  obtain ⟨e, b, -, hb, rfl⟩ := compile_eq_ok_iff.mp h
  obtain ⟨p, -, hp⟩ := exists_of_contains hb hpart
  exact exists_rule_of_customPart (customPart_of_bindPart_custom hp)

theorem standard_compile_eq_ok_iff {pattern : String} {c : Compiled} :
    standard.compile pattern = .ok c ↔
      ∃ e b, Expression.parse pattern = .ok e ∧ standard.bind e = .ok b ∧ c = ⟨pattern, e, b, true, none⟩ := by
  have hparse : standard.parse = Expression.parse := rfl
  have hsource : standard.source pattern = pattern := rfl
  have hencodes : standard.encodes = true := rfl
  have htransformer : standard.transformer = none := rfl
  rw [compile_eq_ok_iff, hparse, hsource, hencodes, htransformer]

end Dialect

end Phrasebook
