import Mathlib.Data.List.Forall2
import Phrasebook.Proofs.Evaluation.Agree

namespace Phrasebook

def BoundPart.bodies : BoundPart → List BoundExpression
  | .switch _ _ _ _ cases nullCase => cases.map BoundCase.body ++ nullCase.toList
  | .group _ _ _ body => body.toList
  | _ => []

theorem BoundPart.sizeOf_lt_of_mem_bodies {q : BoundPart} {b : BoundExpression} (h : b ∈ q.bodies) :
    sizeOf b < sizeOf q := by
  cases q with
  | switch subject evaluator formatter template cases nullCase =>
      rw [BoundPart.switch.sizeOf_spec]
      rcases List.mem_append.mp h with h | h
      · obtain ⟨c, hc, rfl⟩ := List.mem_map.mp h
        have := List.sizeOf_lt_of_mem hc
        have hb : sizeOf c.body < sizeOf c := by
          obtain ⟨isOpen, spelling, condition, body⟩ := c
          change sizeOf body < _
          rw [BoundCase.mk.sizeOf_spec]
          omega
        omega
      · rw [Option.mem_toList] at h
        rw [h, Option.some.sizeOf_spec]
        omega
  | group name evaluator expander body =>
      rw [BoundPart.group.sizeOf_spec]
      rw [BoundPart.bodies, Option.mem_toList] at h
      rw [h, Option.some.sizeOf_spec]
      omega
  | _ => cases h

namespace BoundExpression

theorem induction {motive : BoundExpression → Prop}
    (step : ∀ e, (∀ q ∈ e, ∀ b ∈ q.bodies, motive b) → motive e) (e : BoundExpression) : motive e :=
  step e fun q hq b hb =>
    have : sizeOf b < sizeOf e :=
      Nat.lt_trans (BoundPart.sizeOf_lt_of_mem_bodies hb) (List.sizeOf_lt_of_mem hq)
    induction step b
termination_by sizeOf e

inductive Contains : BoundExpression → BoundPart → Prop
  | here {e : BoundExpression} {q : BoundPart} (h : q ∈ e) : Contains e q
  | inside {e b : BoundExpression} {p q : BoundPart} (hp : p ∈ e) (hb : b ∈ p.bodies)
      (h : Contains b q) : Contains e q

theorem Contains.body {e b : BoundExpression} {p q : BoundPart} (hp : e.Contains p) (hb : b ∈ p.bodies)
    (hq : b.Contains q) : e.Contains q := by
  induction hp with
  | here hp => exact .inside hp hb hq
  | inside hp hb' _ ih => exact .inside hp hb' (ih hb)

theorem forall_contains_iff {P : BoundPart → Prop} {e : BoundExpression} :
    (∀ q, e.Contains q → P q) ↔ ∀ p ∈ e, P p ∧ ∀ b ∈ p.bodies, ∀ q, Contains b q → P q := by
  constructor
  · exact fun h p hp => ⟨h p (.here hp), fun b hb q hq => h q (.inside hp hb hq)⟩
  · rintro h q (hq | ⟨hp, hb, hq⟩)
    · exact (h q hq).1
    · exact (h _ hp).2 _ hb q hq

end BoundExpression

namespace Render

open Run

/-- What a relation of contexts has to allow for rendering to keep it, with the parameters `G` that may
come up in both runs and the texts related by `T` that may be written. The relation is one for each
number of scopes that rendering is inside of, and parameters are only set in a scope. -/
structure Simulation (E : Nat → Context → Context → Prop) (G : Parameter → Prop)
    (T : String → String → Prop) : Prop where
  push : ∀ n ctx ctx', E n ctx ctx' →
    E (n + 1) { ctx with layers := ctx.layers.push } { ctx' with layers := ctx'.layers.push }
  pop : ∀ n ctx ctx', E (n + 1) ctx ctx' →
    E n { ctx with layers := ctx.layers.pop } { ctx' with layers := ctx'.layers.pop }
  set : ∀ n ctx ctx' name p, E (n + 1) ctx ctx' → G p →
    E (n + 1) { ctx with layers := ctx.layers.set name p } { ctx' with layers := ctx'.layers.set name p }
  empty : T "" ""
  append : ∀ s s' t t', T s s' → T t t' → T (s ++ t) (s' ++ t')
  index : ∀ i, G (Render.index i)
  element : ∀ p items item, G p → p.value = .list items → item ∈ items → G (p.element item)

section

variable {E : Nat → Context → Context → Prop} {X : Failures} {G : Parameter → Prop}
  {T : String → String → Prop} {deeper deeper' : Deeper} {n : Nat}

theorem Simulation.related_setTop (hI : Simulation E G T) (name : String) {p p' : Parameter}
    (hp : Diagonal G p p') :
    Related (E (n + 1)) X (fun _ _ => True) (Run.setTop name p) (Run.setTop name p') := by
  obtain ⟨rfl, hp⟩ := hp
  exact related_modify fun ctx ctx' hctx => hI.set n ctx ctx' name p hctx hp

theorem Simulation.related_inScope (hI : Simulation E G T) {α : Type} {R : α → α → Prop} {m m' : Run α}
    (h : Related (E (n + 1)) X R m m') : Related (E n) X R (Run.inScope m) (Run.inScope m') :=
  h.inScope (hI.push n) (hI.pop n)

theorem related_eachElement (hI : Simulation E G T) {list : Parameter} {format : Option Formatter}
    {length : Nat} {body body' : Nat → Run String}
    (hcurrent : ∀ ctx ctx' p, E (n + 1) ctx ctx' → G p →
      Diagonal G (current format p ctx) (current format p ctx'))
    (hbody : ∀ i, Related (E (n + 1)) X T (body i) (body' i)) {items : List Parameter}
    (hitems : ∀ item ∈ items, G (list.element item)) (i : Nat) :
    Related (E n) X T (eachElement list format length body i items)
      (eachElement list format length body' i items) := by
  induction items generalizing i with
  | nil => exact related_pure hI.empty
  | cons item rest ih =>
      rw [List.forall_mem_cons] at hitems
      have hstep : Related (E n) X T
          (Run.inScope do
            let p := current format (list.element item) (← get)
            Run.setTop "#" p
            Run.setTop "#Index" (index (i + 1))
            body i)
          (Run.inScope do
            let p := current format (list.element item) (← get)
            Run.setTop "#" p
            Run.setTop "#Index" (index (i + 1))
            body' i) := by
        refine hI.related_inScope (related_get_bind fun ctx ctx' hctx => ?_)
        exact (hI.related_setTop "#" (hcurrent ctx ctx' _ hctx hitems.1)).bind fun _ _ _ =>
          (hI.related_setTop "#Index" ⟨rfl, hI.index _⟩).bind fun _ _ _ => hbody i
      exact hstep.bind fun text text' htext => (ih hitems.2 (i + 1)).bind fun more more' hmore =>
        related_pure (hI.append text text' more more' htext hmore)

theorem related_testElement (hI : Simulation E G T) {condition : Condition}
    (h : ∀ p, G p →
      Related (E n) X (Diagonal fun _ => True) (condition.test deeper p) (condition.test deeper' p))
    (i length : Nat) :
    Related (E n) X (Diagonal fun _ => True) (testElement deeper condition i length)
      (testElement deeper' condition i length) := by
  refine (h _ (hI.index _)).bind ?_
  rintro passed _ ⟨rfl, -⟩
  cases passed with
  | true => exact related_pure ⟨rfl, trivial⟩
  | false => exact h _ (hI.index _)

theorem testElement_always (i length : Nat) : testElement deeper .always i length = pure true := rfl

def RelatedTests (E : Context → Context → Prop) (X : Failures) (C : Condition → Prop)
    (passes passes' : Condition → Run Bool) : Prop :=
  passes .always = pure true ∧ ∀ c, C c → Related E X (Diagonal fun _ => True) (passes c) (passes' c)

theorem related_switch (hI : Simulation E G T) {C : Condition → Prop} {subject subject' : Reference}
    {evaluator : Evaluator} {format : Option Formatter} {template template' : Option String}
    {cases cases' : List BoundCase} {nullCase nullCase' : Option BoundExpression}
    (hevaluator : Related (E n) X (Diagonal G) (evaluator.evaluate deeper) (evaluator.evaluate deeper'))
    (hcurrent : ∀ ctx ctx' p, E (n + 1) ctx ctx' → G p →
      Diagonal G (current format p ctx) (current format p ctx'))
    (htest : ∀ c, C c → ∀ p, G p →
      Related (E (n + 1)) X (Diagonal fun _ => True) (c.test deeper p) (c.test deeper' p))
    (hnull : Related (E n) X T (body deeper nullCase) (body deeper' nullCase'))
    (hfirst : ∀ passes passes', RelatedTests (E (n + 1)) X C passes passes' →
      Related (E (n + 1)) X T (firstCase deeper passes cases) (firstCase deeper' passes' cases')) :
    Related (E n) X T (part deeper (.switch subject evaluator format template cases nullCase))
      (part deeper' (.switch subject' evaluator format template' cases' nullCase')) := by
  rw [part, part]
  refine hevaluator.bind ?_
  rintro p _ ⟨rfl, hp⟩
  have hother : Related (E n) X T
      (Run.inScope do
        Run.setTop "#" (current format p (← get))
        firstCase deeper (Condition.test deeper p) cases)
      (Run.inScope do
        Run.setTop "#" (current format p (← get))
        firstCase deeper' (Condition.test deeper' p) cases') := by
    refine hI.related_inScope (related_get_bind fun ctx ctx' hctx => ?_)
    exact (hI.related_setTop "#" (hcurrent ctx ctx' p hctx hp)).bind fun _ _ _ =>
      hfirst _ _ ⟨rfl, fun c hc => htest c hc p hp⟩
  split
  next => exact hnull
  next items hitems =>
    exact related_eachElement hI hcurrent (fun i => hfirst _ _ ⟨testElement_always i _,
        fun c hc => related_testElement hI (htest c hc) i _⟩)
      (fun item hitem => hI.element p items item hp hitems hitem) 0
  next => exact hother

theorem related_firstCase (hI : Simulation E G T) {C : Condition → Prop} {cases cases' : List BoundCase}
    (hcases : List.Forall₂ (fun c c' => C c.condition ∧ c'.condition = c.condition ∧
      Related (E n) X T (parts deeper c.body) (parts deeper' c'.body)) cases cases')
    {passes passes' : Condition → Run Bool} (hpasses : RelatedTests (E n) X C passes passes') :
    Related (E n) X T (firstCase deeper passes cases) (firstCase deeper' passes' cases') := by
  induction hcases with
  | nil => exact related_pure hI.empty
  | @cons c c' rest rest' hc _ ih =>
      obtain ⟨isOpen, spelling, condition, body⟩ := c
      obtain ⟨isOpen', spelling', condition', body'⟩ := c'
      obtain ⟨hcondition, hsame, hbody⟩ := hc
      dsimp only at hcondition hsame hbody
      rw [firstCase, firstCase, hsame]
      refine (hpasses.2 condition hcondition).bind ?_
      rintro passed _ ⟨rfl, -⟩
      cases passed with
      | true => exact hbody
      | false => exact ih

/-- What is asked of a part besides the parts inside it. Only in a parameter may the two runs differ in
what the evaluator brings up. -/
def PartRelated (E : Context → Context → Prop) (X : Failures) (G : Parameter → Prop)
    (T : String → String → Prop) (deeper deeper' : Deeper) : BoundPart → Prop
  | .text s => ∀ ctx ctx', E ctx ctx' → T (ctx.encoder.encode s) (ctx'.encoder.encode s)
  | .parameter _ evaluator formatter =>
    ∃ H : Parameter → Parameter → Prop,
      Related E X H (evaluator.evaluate deeper) (evaluator.evaluate deeper') ∧
      ∀ ctx ctx' p p', E ctx ctx' → H p p' →
        T (p.write formatter ctx) (p'.write formatter ctx')
  | .switch _ evaluator format _ cases _ =>
    Related E X (Diagonal G) (evaluator.evaluate deeper) (evaluator.evaluate deeper') ∧
      (∀ ctx ctx' p, E ctx ctx' → G p →
        Diagonal G (current format p ctx) (current format p ctx')) ∧
      ∀ c ∈ cases, ∀ p, G p →
        Related E X (Diagonal fun _ => True) (c.condition.test deeper p) (c.condition.test deeper' p)
  | .group _ evaluator expander _ =>
    Related E X (Diagonal G) (evaluator.evaluate deeper) (evaluator.evaluate deeper') ∧
      ∀ p s s', G p → T s s' →
        T (expander.expand p.value.invariantText s) (expander.expand p.value.invariantText s')
  | .custom _ part => Related E X T (Run.onScene part.render) (Run.onScene part.render)

theorem related_parts_cons (hI : Simulation E G T) {q q' : BoundPart} {e e' : BoundExpression}
    (hpart : Related (E n) X T (part deeper q) (part deeper' q'))
    (hrest : Related (E n) X T (parts deeper e) (parts deeper' e')) :
    Related (E n) X T (parts deeper (q :: e)) (parts deeper' (q' :: e')) := by
  rw [parts, parts]
  exact hpart.bind fun s s' hs => hrest.bind fun t t' ht => related_pure (hI.append s s' t t' hs ht)

theorem related_body (hI : Simulation E G T) {b b' : Option BoundExpression}
    (h : Option.Rel (fun e e' => Related (E n) X T (parts deeper e) (parts deeper' e')) b b') :
    Related (E n) X T (body deeper b) (body deeper' b') := by
  cases h with
  | none => exact related_pure hI.empty
  | some h => exact h

theorem rel_self {α : Type} {R : α → α → Prop} {b : Option α} (h : ∀ a ∈ b, R a a) : Option.Rel R b b := by
  cases b with
  | none => exact .none
  | some a => exact .some (h a rfl)

theorem related_group {D : Context → Context → Prop} {name : String} {evaluator : Evaluator}
    {expander : Expander} {b b' : Option BoundExpression}
    (h : PartRelated D X G T deeper deeper' (.group name evaluator expander b))
    (hbody : Related D X T (body deeper b) (body deeper' b')) :
    Related D X T (part deeper (.group name evaluator expander b))
      (part deeper' (.group name evaluator expander b')) := by
  rw [part, part]
  refine h.1.bind ?_
  rintro p _ ⟨rfl, hp⟩
  refine hbody.bind fun s s' hs => related_pure ?_
  split
  · exact hs
  · exact h.2 p s s' hp hs

theorem related_parameter {D : Context → Context → Prop} {ref : Reference} {evaluator : Evaluator}
    {formatter : Formatter} (h : PartRelated D X G T deeper deeper' (.parameter ref evaluator formatter)) :
    Related D X T (part deeper (.parameter ref evaluator formatter))
      (part deeper' (.parameter ref evaluator formatter)) := by
  obtain ⟨H, hevaluator, hwrite⟩ := h
  rw [part, part]
  exact hevaluator.bind fun p p' hp => related_get_bind fun ctx ctx' hctx =>
    related_pure (hwrite ctx ctx' p p' hctx hp)

theorem related_part (hI : Simulation E G T) {q : BoundPart}
    (hlocal : ∀ n, PartRelated (E n) X G T deeper deeper' q)
    (hbodies : ∀ b ∈ q.bodies, ∀ n, Related (E n) X T (parts deeper b) (parts deeper' b)) (n : Nat) :
    Related (E n) X T (part deeper q) (part deeper' q) := by
  cases q with
  | text s =>
      rw [part, part]
      exact related_get_bind fun ctx ctx' hctx => related_pure (hlocal n ctx ctx' hctx)
  | parameter => exact related_parameter (hlocal n)
  | custom node custom =>
      rw [part, part]
      exact hlocal n
  | group name evaluator expander b =>
      exact related_group (hlocal n) (related_body hI (rel_self fun e he =>
        hbodies e (Option.mem_toList.mpr he) n))
  | switch subject evaluator format template cases nullCase =>
      have hnull := related_body hI (rel_self fun e he =>
        hbodies e (List.mem_append.mpr (.inr (Option.mem_toList.mpr he))) n)
      have hinside := hlocal (n + 1)
      refine related_switch hI (C := fun condition => ∃ c ∈ cases, c.condition = condition)
        (hlocal n).1 hinside.2.1 ?_ hnull fun passes passes' hpasses => ?_
      · rintro _ ⟨c, hc, rfl⟩ p hp
        exact hinside.2.2 c hc p hp
      · refine related_firstCase hI (List.forall₂_same.mpr fun c hc => ?_) hpasses
        exact ⟨⟨c, hc, rfl⟩, rfl, hbodies c.body
          (List.mem_append.mpr (.inl (List.mem_map.mpr ⟨c, hc, rfl⟩))) (n + 1)⟩

/-- Rendering an expression is related at two depths, if every part of it is so alone. -/
theorem related_parts (hI : Simulation E G T) {e : BoundExpression}
    (h : ∀ n q, e.Contains q → PartRelated (E n) X G T deeper deeper' q) (n : Nat) :
    Related (E n) X T (parts deeper e) (parts deeper' e) := by
  induction e using BoundExpression.induction generalizing n with
  | step e ih =>
      have hparts : ∀ q ∈ e, Related (E n) X T (part deeper q) (part deeper' q) := by
        intro q hq
        refine related_part hI (fun n => h n q (.here hq)) (fun b hb n => ?_) n
        exact ih q hq b hb (fun n p hp => h n p (.inside hq hb hp)) n
      clear ih h
      induction e with
      | nil =>
          rw [parts, parts]
          exact related_pure hI.empty
      | cons q e ih =>
          exact related_parts_cons hI (hparts q List.mem_cons_self)
            (ih fun p hp => hparts p (List.mem_cons_of_mem q hp))

theorem related_decoded {transformer : Option Transformer} {s s' : String} (hs : T s s') :
    (∀ t ∈ transformer, ∀ s s', T s s' → T (t.decode s) (t.decode s')) →
      T (match transformer with
          | some t => t.decode s
          | none => s)
        (match transformer with
          | some t => t.decode s'
          | none => s') := by
  intro hdecode
  cases transformer with
  | none => exact hs
  | some t => exact hdecode t rfl s s' hs

theorem related_renderWith (hI : Simulation E G T) (n : Nat) {c d : Compiled} (hencodes : c.encodes = d.encodes)
    (htransformer : c.transformer = d.transformer)
    (hparts : Related (E (n + 1)) X T (parts deeper c.bound) (parts deeper' d.bound))
    (hidentity : c.encodes = false →
      (∀ ctx ctx', E n ctx ctx' → E n { ctx with encoder := .identity } { ctx' with encoder := .identity }) ∧
      ∀ ctx ctx' after after', E n ctx ctx' → E n after after' →
        E n { after with encoder := ctx.encoder } { after' with encoder := ctx'.encoder })
    (hdecode : ∀ t ∈ c.transformer, ∀ s s', T s s' → T (t.decode s) (t.decode s')) :
    Related (E n) X T (c.renderWith deeper) (d.renderWith deeper') := by
  have hexpression : Related (E n) X T (expression deeper c.bound) (expression deeper' d.bound) :=
    hI.related_inScope hparts
  unfold Compiled.renderWith
  dsimp only
  rw [← hencodes, ← htransformer]
  split
  · exact hexpression.bind fun s s' hs => related_pure (related_decoded hs hdecode)
  next hplain =>
    obtain ⟨henter, hleave⟩ := hidentity (by simpa using hplain)
    exact (hexpression.withEncoder henter hleave).bind fun s s' hs => related_pure (related_decoded hs hdecode)

end

/-- What an invariant of contexts has to allow for rendering to keep it, with the parameters `G`
that may come up and the texts `T` that may be written. -/
structure Invariant (I : Context → Prop) (G : Parameter → Prop) (T : String → Prop) : Prop where
  push : ∀ ctx, I ctx → I { ctx with layers := ctx.layers.push }
  pop : ∀ ctx, I ctx → I { ctx with layers := ctx.layers.pop }
  set : ∀ ctx name p, I ctx → G p → I { ctx with layers := ctx.layers.set name p }
  empty : T ""
  append : ∀ s t, T s → T t → T (s ++ t)
  literal : ∀ ctx s, I ctx → T (ctx.encoder.encode s)
  index : ∀ i, G (Render.index i)
  element : ∀ p items item, G p → p.value = .list items → item ∈ items → G (p.element item)

section

variable {I : Context → Prop} {G : Parameter → Prop} {T : String → Prop} {deeper deeper' : Deeper}

theorem Invariant.simulation (hI : Invariant I G T) : Simulation (fun _ => Diagonal I) G (Diagonal T) where
  push _ _ _ h := h.map hI.push
  pop _ _ _ h := h.map hI.pop
  set _ _ _ name p h hp := h.map fun ctx hctx => hI.set ctx name p hctx hp
  empty := ⟨rfl, hI.empty⟩
  append s s' t t' hs ht := ⟨by rw [hs.1, ht.1], hI.append s t hs.2 ht.2⟩
  index := hI.index
  element := hI.element

def Passes (I : Context → Prop) (C : Condition → Prop) (passes passes' : Condition → Run Bool) : Prop :=
  passes .always = pure true ∧ ∀ c, C c → Agree I (fun _ => True) (passes c) (passes' c)

theorem passes_iff_relatedTests {C : Condition → Prop} {passes passes' : Condition → Run Bool} :
    Passes I C passes passes' ↔ RelatedTests (Diagonal I) .equal C passes passes' :=
  and_congr_right fun _ => forall₂_congr fun _ _ => agree_iff_related

theorem agree_switch (hI : Invariant I G T) {C : Condition → Prop} {subject subject' : Reference}
    {evaluator : Evaluator} {format : Option Formatter} {template template' : Option String}
    {cases cases' : List BoundCase} {nullCase nullCase' : Option BoundExpression}
    (hevaluator : Agree I G (evaluator.evaluate deeper) (evaluator.evaluate deeper'))
    (hcurrent : ∀ ctx p, I ctx → G p → G (current format p ctx))
    (htest : ∀ c, C c → ∀ p, G p → Agree I (fun _ => True) (c.test deeper p) (c.test deeper' p))
    (hnull : Agree I T (body deeper nullCase) (body deeper' nullCase'))
    (hfirst : ∀ passes passes', Passes I C passes passes' →
      Agree I T (firstCase deeper passes cases) (firstCase deeper' passes' cases')) :
    Agree I T (part deeper (.switch subject evaluator format template cases nullCase))
      (part deeper' (.switch subject' evaluator format template' cases' nullCase')) := by
  rw [agree_iff_related] at hevaluator hnull ⊢
  refine related_switch hI.simulation (n := 0) (C := C) hevaluator ?_
    (fun c hc p hp => agree_iff_related.mp (htest c hc p hp)) hnull
    fun passes passes' hpasses => agree_iff_related.mp (hfirst _ _ (passes_iff_relatedTests.mpr hpasses))
  rintro ctx _ p ⟨rfl, hctx⟩ hp
  exact ⟨rfl, hcurrent ctx p hctx hp⟩

theorem agree_firstCase (hI : Invariant I G T) {C : Condition → Prop} {cases cases' : List BoundCase}
    (hcases : List.Forall₂ (fun c c' => C c.condition ∧ c'.condition = c.condition ∧
      Agree I T (parts deeper c.body) (parts deeper' c'.body)) cases cases')
    {passes passes' : Condition → Run Bool} (hpasses : Passes I C passes passes') :
    Agree I T (firstCase deeper passes cases) (firstCase deeper' passes' cases') :=
  agree_iff_related.mpr (related_firstCase hI.simulation (n := 0)
    (hcases.imp fun _ _ hc => ⟨hc.1, hc.2.1, agree_iff_related.mp hc.2.2⟩)
    (passes_iff_relatedTests.mp hpasses))

def PartAgrees (I : Context → Prop) (G : Parameter → Prop) (T : String → Prop)
    (deeper deeper' : Deeper) : BoundPart → Prop
  | .text _ => True
  | .parameter _ evaluator formatter =>
    Agree I G (evaluator.evaluate deeper) (evaluator.evaluate deeper') ∧
      ∀ ctx p, I ctx → G p → T (p.write formatter ctx)
  | .switch _ evaluator format _ cases _ =>
    Agree I G (evaluator.evaluate deeper) (evaluator.evaluate deeper') ∧
      (∀ ctx p, I ctx → G p → G (current format p ctx)) ∧
      ∀ c ∈ cases, ∀ p, G p →
        Agree I (fun _ => True) (c.condition.test deeper p) (c.condition.test deeper' p)
  | .group _ evaluator expander _ =>
    Agree I G (evaluator.evaluate deeper) (evaluator.evaluate deeper') ∧
      ∀ p s, G p → T s → T (expander.expand p.value.invariantText s)
  | .custom _ part => Ensures I T (Run.onScene part.render)

theorem PartAgrees.related (hI : Invariant I G T) {q : BoundPart} (h : PartAgrees I G T deeper deeper' q) :
    PartRelated (Diagonal I) .equal G (Diagonal T) deeper deeper' q := by
  cases q with
  | text s =>
      rintro ctx _ ⟨rfl, hctx⟩
      exact ⟨rfl, hI.literal ctx s hctx⟩
  | parameter ref evaluator formatter =>
      refine ⟨Diagonal G, agree_iff_related.mp h.1, ?_⟩
      rintro ctx _ p _ ⟨rfl, hctx⟩ ⟨rfl, hp⟩
      exact ⟨rfl, h.2 ctx p hctx hp⟩
  | switch subject evaluator format template cases nullCase =>
      refine ⟨agree_iff_related.mp h.1, ?_, fun c hc p hp => agree_iff_related.mp (h.2.2 c hc p hp)⟩
      rintro ctx _ p ⟨rfl, hctx⟩ hp
      exact ⟨rfl, h.2.1 ctx p hctx hp⟩
  | group name evaluator expander body =>
      refine ⟨agree_iff_related.mp h.1, ?_⟩
      rintro p s _ hp ⟨rfl, hs⟩
      exact ⟨rfl, h.2 p s hp hs⟩
  | custom node part => exact agree_iff_related.mp h

theorem agree_parts_cons (hI : Invariant I G T) {q q' : BoundPart} {e e' : BoundExpression}
    (hpart : Agree I T (part deeper q) (part deeper' q'))
    (hrest : Agree I T (parts deeper e) (parts deeper' e')) :
    Agree I T (parts deeper (q :: e)) (parts deeper' (q' :: e')) := by
  rw [agree_iff_related] at hpart hrest ⊢
  exact related_parts_cons hI.simulation (n := 0) hpart hrest

theorem agree_body (hI : Invariant I G T) {b b' : Option BoundExpression}
    (h : Option.Rel (fun e e' => Agree I T (parts deeper e) (parts deeper' e')) b b') :
    Agree I T (body deeper b) (body deeper' b') := by
  cases h with
  | none => exact ensures_pure hI.empty
  | some h => exact h

theorem agree_text (hI : Invariant I G T) (s : String) :
    Agree I T (part deeper (.text s)) (part deeper' (.text s)) :=
  agree_get_bind fun ctx hctx => ensures_pure (hI.literal ctx s hctx)

theorem agree_parameter (hI : Invariant I G T) {ref : Reference} {evaluator : Evaluator}
    {formatter : Formatter} (h : PartAgrees I G T deeper deeper' (.parameter ref evaluator formatter)) :
    Agree I T (part deeper (.parameter ref evaluator formatter))
      (part deeper' (.parameter ref evaluator formatter)) :=
  agree_iff_related.mpr (related_parameter (h.related hI))

theorem agree_group (hI : Invariant I G T) {name : String} {evaluator : Evaluator} {expander : Expander}
    {b b' : Option BoundExpression} (h : PartAgrees I G T deeper deeper' (.group name evaluator expander b))
    (hbody : Agree I T (body deeper b) (body deeper' b')) :
    Agree I T (part deeper (.group name evaluator expander b))
      (part deeper' (.group name evaluator expander b')) :=
  agree_iff_related.mpr (related_group (h.related hI) (agree_iff_related.mp hbody))

theorem agree_parts (hI : Invariant I G T) {e : BoundExpression}
    (h : ∀ q, e.Contains q → PartAgrees I G T deeper deeper' q) :
    Agree I T (parts deeper e) (parts deeper' e) :=
  agree_iff_related.mpr (related_parts hI.simulation (fun _ q hq => (h q hq).related hI) 0)

theorem agree_renderWith (hI : Invariant I G T) {c d : Compiled} (hencodes : c.encodes = d.encodes)
    (htransformer : c.transformer = d.transformer)
    (hparts : Agree I T (parts deeper c.bound) (parts deeper' d.bound))
    (henter : ∀ ctx, I ctx → I { ctx with encoder := .identity })
    (hleave : ∀ ctx after, I ctx → I after → I { after with encoder := ctx.encoder })
    (hdecode : ∀ t ∈ c.transformer, ∀ s, T s → T (t.decode s)) :
    Agree I T (c.renderWith deeper) (d.renderWith deeper') := by
  rw [agree_iff_related] at hparts ⊢
  refine related_renderWith hI.simulation 0 hencodes htransformer hparts (fun _ => ⟨fun _ _ h => h.map henter, ?_⟩)
    fun t ht _ _ hs => hs.map (hdecode t ht)
  rintro ctx _ after _ ⟨rfl, hctx⟩ ⟨rfl, hafter⟩
  exact ⟨rfl, hleave ctx after hctx hafter⟩

end

end Render

end Phrasebook
