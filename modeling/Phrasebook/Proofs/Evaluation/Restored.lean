import Phrasebook.Engine
import Phrasebook.Proofs.Dialect.Binding
import Phrasebook.Proofs.Evaluation.Lookups

namespace Phrasebook

def CustomPart.LeavesScene (part : CustomPart) : Prop :=
  ∀ scene, (part.render scene).2 = scene

def BoundExpression.LeavesScene (e : BoundExpression) : Prop :=
  ∀ node part, e.Contains (.custom node part) → part.LeavesScene

def Dialect.LeavesScene (d : Dialect) : Prop :=
  ∀ rule ∈ d.customParts, ∀ node, ∀ part ∈ rule node, part.LeavesScene

theorem Dialect.standard_leavesScene : Dialect.standard.LeavesScene := by
  rintro rule ⟨⟩

theorem Dialect.LeavesScene.compile {d : Dialect} (hd : d.LeavesScene) {pattern : String} {c : Compiled}
    (h : d.compile pattern = .ok c) : c.bound.LeavesScene := by
  intro node part hpart
  obtain ⟨rule, hrule, hnode⟩ := Dialect.exists_rule_of_compile h hpart
  exact hd rule hrule node part hnode

open Run

/-- The context of a run that is `n` scopes inside of where it began. -/
def Context.Inside (start : Context) (n : Nat) (ctx : Context) : Prop :=
  ∃ scopes journal, scopes.length = n ∧ ctx = { start with layers := scopes ++ start.layers, journal }

namespace Context.Inside

theorem refl (ctx : Context) : ctx.Inside 0 ctx :=
  ⟨[], ctx.journal, rfl, rfl⟩

variable {start : Context} {n : Nat}

theorem eq {ctx : Context} (h : start.Inside 0 ctx) : ∃ journal, ctx = { start with journal } := by
  obtain ⟨scopes, journal, hlength, rfl⟩ := h
  obtain rfl := List.eq_nil_of_length_eq_zero hlength
  exact ⟨journal, rfl⟩

theorem simulation (start : Context) :
    Render.Simulation (fun n => Diagonal (start.Inside n)) (fun _ => True) (Diagonal fun _ => True) where
  push := by
    rintro n _ _ ⟨rfl, scopes, journal, hlength, rfl⟩
    exact ⟨rfl, .empty :: scopes, journal, congrArg (· + 1) hlength, rfl⟩
  pop := by
    rintro n _ _ ⟨rfl, _ | ⟨top, scopes⟩, journal, hlength, rfl⟩
    · cases hlength
    · exact ⟨rfl, scopes, journal, Nat.succ.inj hlength, rfl⟩
  set := by
    rintro n _ _ name p ⟨rfl, _ | ⟨top, scopes⟩, journal, hlength, rfl⟩ -
    · cases hlength
    · exact ⟨rfl, top.set name p :: scopes, journal, hlength, rfl⟩
  empty := ⟨rfl, trivial⟩
  append _ _ _ _ hs ht := ⟨by rw [hs.1, ht.1], trivial⟩
  index _ := trivial
  element _ _ _ _ _ _ := trivial

theorem passage (start : Context) (n : Nat) :
    Passage (start.Inside n)
      fun call => Inside { start with calls := start.calls ++ [call] } n where
  enter := by
    rintro _ call ⟨scopes, journal, hlength, rfl⟩ - -
    exact ⟨scopes, _, hlength, rfl⟩
  leave := by
    rintro _ call ⟨scopes, journal, hlength, rfl⟩
    refine ⟨scopes, journal, hlength, ?_⟩
    dsimp only
    rw [List.dropLast_concat]
  note := by
    rintro _ call pattern ⟨scopes, journal, hlength, rfl⟩
    exact ⟨scopes, _, hlength, rfl⟩

/-- A lookup renders in a context of its own, so that nothing is asked of what it renders. -/
theorem ensures_evaluate (deeper : Deeper) (e : Evaluator) :
    Ensures (start.Inside n) (fun _ => True) (e.evaluate deeper) := by
  refine Evaluator.agree_evaluate (passage start n) trivial (fun _ _ _ _ _ => trivial)
    (fun _ _ _ _ _ => trivial) (fun key arguments _ => ?_) fun _ _ _ _ _ => trivial
  refine Evaluator.agree_renderStored (passage start n) (T := fun _ => True) trivial (fun _ _ => trivial)
    fun ctx _ books _ space key pattern _ c _ => ?_
  have hchild : Ensures (fun _ => True) (fun _ => True) (deeper.render c) :=
    fun _ _ => ⟨rfl, trivial, fun _ _ => trivial⟩
  refine hchild.asChild (fun _ _ => trivial) ?_
  rintro _ after ⟨scopes, journal, hlength, rfl⟩ -
  exact ⟨scopes, _, hlength, rfl⟩

end Context.Inside

def Deeper.TestsRestored (deeper : Deeper) : Prop :=
  ∀ start n c p, Ensures (Context.Inside start n) (fun _ => True) (deeper.test c p)

section

variable {deeper : Deeper} (h : deeper.TestsRestored)

include h

theorem Deeper.TestsRestored.ensures_test (start : Context) (n : Nat) (c : Condition) (p : Parameter) :
    Ensures (start.Inside n) (fun _ => True) (c.test deeper p) :=
  Condition.agree_test (Context.Inside.passage start n) (fun _ c p => h _ n c p) c p

theorem Deeper.TestsRestored.partRelated (start : Context) (n : Nat) {q : BoundPart}
    (hq : ∀ node part, q = .custom node part → part.LeavesScene) :
    Render.PartRelated (Diagonal (start.Inside n)) .equal (fun _ => True) (Diagonal fun _ => True)
      deeper deeper q := by
  have hevaluate (e : Evaluator) : Related (Diagonal (start.Inside n)) .equal (Diagonal fun _ => True)
      (e.evaluate deeper) (e.evaluate deeper) :=
    agree_iff_related.mp (Context.Inside.ensures_evaluate deeper e)
  cases q with
  | text s =>
      rintro ctx _ ⟨rfl, -⟩
      exact ⟨rfl, trivial⟩
  | parameter ref e f =>
      refine ⟨_, hevaluate e, ?_⟩
      rintro ctx _ p _ ⟨rfl, -⟩ ⟨rfl, -⟩
      exact ⟨rfl, trivial⟩
  | switch subject e f template cases nullCase =>
      refine ⟨hevaluate e, ?_, fun c _ p _ => ?_⟩
      · rintro ctx _ p ⟨rfl, -⟩ -
        exact ⟨rfl, trivial⟩
      · exact agree_iff_related.mp (h.ensures_test start n c.condition p)
  | group name e expander body =>
      refine ⟨hevaluate e, ?_⟩
      rintro p s _ - ⟨rfl, -⟩
      exact ⟨rfl, trivial⟩
  | custom node part =>
      refine agree_iff_related.mp fun ctx hctx => ⟨rfl, ?_, fun _ _ => trivial⟩
      have hleaves := hq node part rfl ctx.toScene
      change start.Inside n { ctx with toScene := (part.render ctx.toScene).2 }
      rwa [hleaves]

/-- Whatever an expression comes to, it leaves the scopes that it is rendered in, and all else, as they were. -/
theorem Deeper.TestsRestored.ensures_parts {e : BoundExpression} (he : e.LeavesScene) (start : Context) (n : Nat) :
    Ensures (start.Inside n) (fun _ => True) (Render.parts deeper e) := by
  refine agree_iff_related.mpr (Render.related_parts (Context.Inside.simulation start) (fun n q hq => ?_) n)
  refine h.partRelated start n ?_
  rintro node part rfl
  exact he node part hq

theorem Deeper.TestsRestored.ensures_part {e : BoundExpression} (he : e.LeavesScene) {q : BoundPart} (hq : q ∈ e)
    (start : Context) (n : Nat) : Ensures (start.Inside n) (fun _ => True) (Render.part deeper q) := by
  refine agree_iff_related.mpr (Render.related_part (Context.Inside.simulation start) (fun n => ?_)
    (fun b hb n => ?_) n)
  · refine h.partRelated start n ?_
    rintro node part rfl
    exact he node part (.here hq)
  · exact agree_iff_related.mp (h.ensures_parts (fun node part hpart => he node part (.inside hq hb hpart)) start n)

theorem Deeper.TestsRestored.ensures_renderWith {c : Compiled} (hc : c.bound.LeavesScene) (start : Context) :
    Ensures (start.Inside 0) (fun _ => True) (c.renderWith deeper) := by
  have hexpression (start : Context) :=
    (Context.Inside.simulation start).related_inScope (agree_iff_related.mp (h.ensures_parts hc start 1))
  have hencoded : Related (Diagonal (start.Inside 0)) .equal (Diagonal fun _ => True)
      (Run.withEncoder .identity (Render.expression deeper c.bound))
      (Run.withEncoder .identity (Render.expression deeper c.bound)) := by
    -- under the other encoder the run is inside a context with that one
    refine (hexpression { start with encoder := .identity }).withEncoder ?_ ?_
    · rintro _ _ ⟨rfl, scopes, journal, hlength, rfl⟩
      exact ⟨rfl, scopes, journal, hlength, rfl⟩
    · rintro _ _ _ _ ⟨rfl, _, _, _, rfl⟩ ⟨rfl, scopes, journal, hlength, rfl⟩
      exact ⟨rfl, scopes, journal, hlength, rfl⟩
  refine agree_iff_related.mpr ?_
  unfold Compiled.renderWith
  dsimp only
  split
  · exact (hexpression start).bind fun s s' hs => related_pure ⟨by rw [hs.1], trivial⟩
  · exact hencoded.bind fun s s' hs => related_pure ⟨by rw [hs.1], trivial⟩

end

theorem Deeper.testsRestored_level (depth : Nat) : (level depth).TestsRestored := by
  induction depth with
  | zero =>
      intro start n c p
      exact agree_iff_related.mpr (Context.Inside.passage start n).crossing.related_refuse
  | succ depth ih =>
      intro start n c p
      exact ih.ensures_test start n c p

/-- Evaluation gives its context back as it was, whether it comes to a text or fails at some depth: the layers
of parameters, the chain of lookups, the encoder and the namespace are those it began with. -/
theorem Compiled.evaluate_restores {d : Dialect} (hd : d.LeavesScene) {pattern : String} {c : Compiled}
    (hc : d.compile pattern = .ok c) (ctx : Context) :
    ∃ journal, (c.evaluate ctx).2 = { ctx with journal } := by
  have hrestored := (Deeper.testsRestored_level ctx.remaining).ensures_renderWith (hd.compile hc) ctx ctx (.refl ctx)
  exact hrestored.2.1.eq

namespace Engine

def losing : Engine where
  dialect := { Dialect.standard with encodes := false }
  store := Store.empty.insert "" "seat" "" "#0\x7b\x7b@lost\x7d\x7d"

def crowded : Context :=
  { losing.contextFor "" .invariant .empty with
    layers :=
      [⟨[("#", .plain .null)]⟩, ⟨[("guests", .plain (.list [.plain .null, .plain (.text "ann")])),
        ("host", .plain (.text "eve"))]⟩]
    encoder := .html
    calls := [.named "letter"] }

/-- The failure comes up in a lookup inside two scopes, where the encoder is another one. -/
theorem losing_restores :
    ∃ c e, losing.dialect.compile "#guests\x7b#host\x7b\x7b@seat(#)\x7d\x7d\x7d" = .ok c ∧
      (c.evaluate crowded).1 = .error e ∧ ∃ journal, (c.evaluate crowded).2 = { crowded with journal } := by
  have hevaluate : (losing.dialect.compile "#guests\x7b#host\x7b\x7b@seat(#)\x7d\x7d\x7d").toOption.any
      (fun c => !(c.evaluate crowded).1.toOption.isSome) = true := by decide +kernel
  obtain ⟨c, hc, hfails⟩ := any_toOption_iff.mp hevaluate
  have hrestored := Compiled.evaluate_restores (d := losing.dialect) (by rintro rule ⟨⟩) hc crowded
  cases hresult : (c.evaluate crowded).1 with
  | ok s =>
      rw [hresult] at hfails
      cases hfails
  | error e => exact ⟨c, e, hc, hresult, hrestored⟩

end Engine

end Phrasebook
