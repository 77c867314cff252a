import Phrasebook.Proofs.Pattern.Atoms

namespace Phrasebook

/-- The expressions that a part is built of; the conditions of cases are spellings, not expressions. -/
def Part.bodies : Part → List Expression
  | .switch _ _ cases nullCase => cases.map Case.body ++ (nullCase.map NullCase.body).toList
  | .group _ body => body.toList
  | _ => []

theorem Part.mem_bodies_switch {subject : Reference} {template : Option String} {cases : List Case}
    {nullCase : Option NullCase} {b : Expression} :
    b ∈ (Part.switch subject template cases nullCase).bodies ↔
      (∃ c ∈ cases, c.body = b) ∨ ∃ n ∈ nullCase, n.body = b := by
  simp [Part.bodies]

theorem Part.mem_bodies_group {name : String} {body : Option Expression} {b : Expression} :
    b ∈ (Part.group name body).bodies ↔ b ∈ body := by
  simp [Part.bodies]

theorem Part.sizeOf_lt_of_mem_bodies {p : Part} {b : Expression} (h : b ∈ p.bodies) :
    sizeOf b < sizeOf p := by
  cases p with
  | switch subject template cases nullCase =>
      rw [Part.switch.sizeOf_spec]
      rcases Part.mem_bodies_switch.mp h with ⟨c, hc, rfl⟩ | ⟨n, hn, rfl⟩
      · have := List.sizeOf_lt_of_mem hc
        have hb : sizeOf c.body < sizeOf c := by
          obtain ⟨condition, body⟩ := c
          change sizeOf body < _
          rw [Case.mk.sizeOf_spec]
          omega
        omega
      · cases hn
        have hb : sizeOf n.body < sizeOf n := by
          obtain ⟨position, body⟩ := n
          change sizeOf body < _
          rw [NullCase.mk.sizeOf_spec]
          omega
        rw [Option.some.sizeOf_spec]
        omega
  | group name body =>
      rw [Part.group.sizeOf_spec]
      cases Part.mem_bodies_group.mp h
      rw [Option.some.sizeOf_spec]
      omega
  | _ => cases h

namespace Expression

theorem induction {motive : Expression → Prop}
    (step : ∀ e, (∀ p ∈ e, ∀ b ∈ p.bodies, motive b) → motive e) (e : Expression) : motive e :=
  step e fun p hp b hb =>
    have : sizeOf b < sizeOf e :=
      Nat.lt_trans (Part.sizeOf_lt_of_mem_bodies hb) (List.sizeOf_lt_of_mem hp)
    induction step b
termination_by sizeOf e

inductive Contains : Expression → Part → Prop
  | here {e : Expression} {p : Part} (h : p ∈ e) : Contains e p
  | inside {e b : Expression} {p q : Part} (hq : q ∈ e) (hb : b ∈ q.bodies) (h : Contains b p) :
      Contains e p

theorem contains_iff {e : Expression} {p : Part} :
    Contains e p ↔ p ∈ e ∨ ∃ q ∈ e, ∃ b ∈ q.bodies, Contains b p := by
  constructor
  · intro h
    cases h with
    | here h => exact .inl h
    | inside hq hb h => exact .inr ⟨_, hq, _, hb, h⟩
  · rintro (h | ⟨q, hq, b, hb, h⟩)
    · exact .here h
    · exact .inside hq hb h

theorem not_contains_nil {p : Part} : ¬ Contains [] p := by
  rw [contains_iff]
  simp

theorem contains_cons {e : Expression} {p q : Part} :
    Contains (q :: e) p ↔ p = q ∨ (∃ b ∈ q.bodies, Contains b p) ∨ Contains e p := by
  rw [contains_iff, contains_iff (e := e)]
  simp only [List.mem_cons, exists_eq_or_imp, or_assoc]
  exact or_congr_right or_left_comm

end Expression

mutual

def Part.inside : Part → List Part
  | .switch _ _ cases nullCase => insideCases cases ++ insideNullCase nullCase
  | .group _ body => insideBody body
  | _ => []

def insideParts : List Part → List Part
  | [] => []
  | p :: rest => p :: p.inside ++ insideParts rest

def insideBody : Option (List Part) → List Part
  | none => []
  | some body => insideParts body

def insideNullCase : Option NullCase → List Part
  | none => []
  | some ⟨_, body⟩ => insideParts body

def insideCases : List Case → List Part
  | [] => []
  | ⟨_, body⟩ :: rest => insideParts body ++ insideCases rest

end

theorem Part.mem_inside_iff {p q : Part} : p ∈ q.inside ↔ ∃ b ∈ q.bodies, p ∈ insideParts b := by
  cases q with
  | switch subject template cases nullCase =>
      have hcases (cs : List Case) : p ∈ insideCases cs ↔ ∃ c ∈ cs, p ∈ insideParts c.body := by
        induction cs with
        | nil => simp [insideCases]
        | cons c cs ih =>
            obtain ⟨condition, body⟩ := c
            simp [insideCases, ih]
      have hnull : p ∈ insideNullCase nullCase ↔ ∃ n ∈ nullCase, p ∈ insideParts n.body := by
        rcases nullCase with _ | ⟨position, body⟩ <;> simp [insideNullCase]
      rw [Part.inside, List.mem_append, hcases, hnull]
      simp only [Part.mem_bodies_switch, or_and_right, exists_or]
      refine or_congr ?_ ?_
      · constructor
        · rintro ⟨c, hc, hp⟩
          exact ⟨c.body, ⟨c, hc, rfl⟩, hp⟩
        · rintro ⟨_, ⟨c, hc, rfl⟩, hp⟩
          exact ⟨c, hc, hp⟩
      · constructor
        · rintro ⟨n, hn, hp⟩
          exact ⟨n.body, ⟨n, hn, rfl⟩, hp⟩
        · rintro ⟨_, ⟨n, hn, rfl⟩, hp⟩
          exact ⟨n, hn, hp⟩
  | group name body =>
      cases body with
      | none => simp [Part.inside, insideBody, Part.bodies]
      | some b => simp [Part.inside, insideBody, Part.bodies]
  | _ => simp [Part.inside, Part.bodies]

namespace Expression

theorem mem_insideParts_iff {e : Expression} {p : Part} : p ∈ insideParts e ↔ Contains e p := by
  induction e using Expression.induction with
  | step e ih =>
      induction e with
      | nil => exact iff_of_false (by rintro ⟨⟩) not_contains_nil
      | cons q e ih' =>
          rw [insideParts, contains_cons, List.cons_append, List.mem_cons, List.mem_append,
            Part.mem_inside_iff, ih' fun r hr => ih r (List.mem_cons_of_mem q hr)]
          refine or_congr_right (or_congr_left (exists_congr fun b => and_congr_right fun hb => ?_))
          exact ih q List.mem_cons_self b hb

instance {h : Part → Prop} [DecidablePred h] (e : Expression) : Decidable (∀ p, Contains e p → h p) :=
  decidable_of_iff (∀ p ∈ insideParts e, h p) (forall_congr' fun _ => by rw [mem_insideParts_iff])

end Expression

theorem normalParts_eq_map (e : List Part) : normalParts e = e.map Part.normal := by
  induction e with
  | nil => rfl
  | cons p e ih => rw [normalParts, ih, List.map_cons]

theorem normalCases_eq_map (cases : List Case) : normalCases cases =
    cases.map fun c => ⟨c.condition, Expression.unquoted (Expression.normal c.body)⟩ := by
  induction cases with
  | nil => rfl
  | cons c cases ih =>
      obtain ⟨condition, body⟩ := c
      rw [normalCases, ih, List.map_cons, Expression.normal]

theorem normalBody_eq_map (body : Option Expression) :
    normalBody body = body.map fun b => Expression.unquoted (Expression.normal b) := by
  cases body <;> rfl

theorem normalNullCase_eq_map (nullCase : Option NullCase) : normalNullCase nullCase =
    nullCase.map fun n => ⟨n.position, Expression.unquoted (Expression.normal n.body)⟩ := by
  rcases nullCase with _ | ⟨position, body⟩ <;> rfl

namespace Expression

theorem mem_mapFirstText {f : List Char → List Char} {e : Expression} {p : Part}
    (h : p ∈ mapFirstText f e) : p ∈ e ∨ ∃ s, p = .text s := by
  unfold mapFirstText at h
  split at h
  · rcases List.mem_cons.mp h with rfl | h
    · exact .inr ⟨_, rfl⟩
    · exact .inl (List.mem_cons_of_mem _ h)
  · exact .inl h

theorem mem_mapLastText {f : List Char → List Char} {e : Expression} {p : Part}
    (h : p ∈ mapLastText f e) : p ∈ e ∨ ∃ s, p = .text s := by
  fun_induction mapLastText f e with
  | case1 => cases h
  | case2 s => exact .inr ⟨_, List.mem_singleton.mp h⟩
  | case3 q rest _ ih =>
      rcases List.mem_cons.mp h with rfl | h
      · exact .inl List.mem_cons_self
      · exact (ih h).imp_left (List.mem_cons_of_mem q)

theorem mem_unquoted {e : Expression} {p : Part} (h : p ∈ unquoted e) : p ∈ e ∨ ∃ s, p = .text s := by
  unfold unquoted at h
  dsimp only at h
  have hedges (h : p ∈ mapLastText Text.trimEnd (mapFirstText Text.trimStart e)) :
      p ∈ e ∨ ∃ s, p = .text s := by
    rcases mem_mapLastText h with h | h
    · exact mem_mapFirstText h
    · exact .inr h
  split at h
  · rcases mem_mapLastText h with h | h
    · rcases mem_mapFirstText h with h | h
      · exact hedges h
      · exact .inr h
    · exact .inr h
  · exact hedges h

theorem mem_orEmptyText {e : Expression} {p : Part} (h : p ∈ Reader.orEmptyText e) :
    p ∈ e ∨ p = .text "" := by
  cases e with
  | nil => exact .inr (List.mem_singleton.mp h)
  | cons q e => exact .inl h

theorem mem_normal {e : Expression} {p : Part} (h : p ∈ normal e) :
    (∃ s, p = .text s) ∨ ∃ q ∈ e, p = q.normal := by
  rw [normal, normalParts_eq_map] at h
  rcases mem_orEmptyText h with h | rfl
  · obtain ⟨q, hq, rfl⟩ := List.mem_map.mp h
    exact .inr ⟨q, hq, rfl⟩
  · exact .inl ⟨_, rfl⟩

theorem mem_unquoted_normal {e : Expression} {p : Part} (h : p ∈ unquoted (normal e)) :
    (∃ s, p = .text s) ∨ ∃ q ∈ e, p = q.normal := by
  rcases mem_unquoted h with h | h
  · exact mem_normal h
  · exact .inl h

theorem exists_of_mem_bodies_normal {p : Part} {b : Expression} (h : b ∈ p.normal.bodies) :
    ∃ b' ∈ p.bodies, b = unquoted (normal b') := by
  cases p with
  | switch subject template cases nullCase =>
      rw [Part.normal, normalCases_eq_map, normalNullCase_eq_map] at h
      rcases Part.mem_bodies_switch.mp h with ⟨c, hc, rfl⟩ | ⟨n, hn, rfl⟩
      · obtain ⟨c', hc', rfl⟩ := List.mem_map.mp hc
        exact ⟨c'.body, Part.mem_bodies_switch.mpr (.inl ⟨c', hc', rfl⟩), rfl⟩
      · obtain ⟨n', hn', rfl⟩ := Option.map_eq_some_iff.mp hn
        exact ⟨n'.body, Part.mem_bodies_switch.mpr (.inr ⟨n', hn', rfl⟩), rfl⟩
  | group name body =>
      rw [Part.normal, normalBody_eq_map] at h
      obtain ⟨b', hb', rfl⟩ := Option.map_eq_some_iff.mp (Part.mem_bodies_group.mp h)
      exact ⟨b', Part.mem_bodies_group.mpr hb', rfl⟩
  | _ => cases h

/-- What stands in a normal form comes from a part of the expression or is a text. -/
theorem Contains.exists_of_normal {e : Expression} {p : Part} (h : Contains (normal e) p) :
    (∃ s, p = .text s) ∨ ∃ q, Contains e q ∧ p = q.normal := by
  suffices hs : ∀ e' p, Contains e' p → ∀ e, (∀ q ∈ e', (∃ s, q = .text s) ∨ ∃ q' ∈ e, q = q'.normal) →
      (∃ s, p = .text s) ∨ ∃ q, Contains e q ∧ p = q.normal from hs _ _ h e fun q => mem_normal
  intro e' p h
  induction h with
  | here hp =>
      intro e he
      rcases he _ hp with h | ⟨q, hq, h⟩
      · exact .inl h
      · exact .inr ⟨q, .here hq, h⟩
  | inside hq hb _ ih =>
      intro e he
      rcases he _ hq with ⟨s, rfl⟩ | ⟨q', hq', rfl⟩
      · cases hb
      · obtain ⟨b', hb', rfl⟩ := exists_of_mem_bodies_normal hb
        rcases ih b' fun q => mem_unquoted_normal with h | ⟨r, hr, h⟩
        · exact .inl h
        · exact .inr ⟨r, .inside hq' hb' hr, h⟩

end Expression

end Phrasebook
