import Phrasebook.Proofs.Condition.Rules
import Phrasebook.Proofs.Dialect.Binding
import Phrasebook.Proofs.Evaluation.Lookups
import Phrasebook.Proofs.Pattern.Compact

namespace Phrasebook

open Run

section

variable {ε ε' α α' β β' γ : Type} {R : α → α' → Prop} {S : β → β' → Prop}

/-- Two results that are both errors, whichever, or related values. -/
def Alike (R : α → α' → Prop) : Except ε α → Except ε' α' → Prop
  | .ok a, .ok a' => R a a'
  | .error _, .error _ => True
  | _, _ => False

namespace Alike

theorem bind {x : Except ε α} {x' : Except ε' α'} {f : α → Except ε β} {f' : α' → Except ε' β'}
    (h : Alike R x x') (hf : ∀ a a', R a a' → Alike S (f a) (f' a')) : Alike S (x >>= f) (x' >>= f') := by
  cases x with
  | error e =>
      cases x' with
      | error e' => trivial
      | ok a' => exact h.elim
  | ok a =>
      cases x' with
      | error e' => exact h.elim
      | ok a' => exact hf a a' h

theorem map {x : Except ε α} {x' : Except ε' α'} {f : α → β} {f' : α' → β'} (h : Alike R x x')
    (hf : ∀ a a', R a a' → S (f a) (f' a')) : Alike S (x.map f) (x'.map f') := by
  cases x <;> cases x' <;> first | trivial | exact h.elim | exact hf _ _ h

theorem trans {R' : α' → β → Prop} {R'' : α → β → Prop} {x : Except ε α} {x' : Except ε' α'}
    {y : Except ε β} (h : Alike R x x') (h' : Alike R' x' y) (hR : ∀ a a' b, R a a' → R' a' b → R'' a b) :
    Alike R'' x y := by
  cases x <;> cases x' <;> cases y <;>
    first | trivial | exact h.elim | exact h'.elim | exact hR _ _ _ h h'

theorem symm {S : β → β → Prop} (hS : ∀ b b', S b b' → S b' b) {x : Except ε β} {x' : Except ε' β}
    (h : Alike S x x') : Alike S x' x := by
  cases x <;> cases x' <;> first | trivial | exact h.elim | exact hS _ _ h

theorem refl_of {S : β → β → Prop} {x : Except ε β} (h : ∀ b, x = .ok b → S b b) : Alike S x x := by
  cases x with
  | error e => trivial
  | ok b => exact h b rfl

theorem same (x : Except ε α) : Alike Eq x x :=
  refl_of fun _ _ => rfl

theorem of_iff {x : Except ε α} {x' : Except ε' α} (h : ∀ a, x' = .ok a ↔ x = .ok a) : Alike Eq x x' := by
  cases x with
  | error e =>
      cases x' with
      | error e' => trivial
      | ok a => cases (h a).mp rfl
  | ok a =>
      rw [(h a).mpr rfl]
      rfl

theorem exists_ok {x : Except ε α} {x' : Except ε' α'} (h : Alike R x x') {a : α} (hx : x = .ok a) :
    ∃ a', x' = .ok a' ∧ R a a' := by
  subst hx
  cases x' with
  | error e => exact h.elim
  | ok a' => exact ⟨a', rfl, h⟩

end Alike

end

/-- The encoder is one that writes nothing where there is nothing. -/
def Context.EncodesPlainly (ctx : Context) : Prop :=
  ctx.encoder = .identity ∨ ctx.encoder = .html

theorem Context.EncodesPlainly.encode_empty {ctx : Context} (h : ctx.EncodesPlainly) :
    ctx.encoder.encode "" = "" := by
  rcases h with h | h <;>
  · rw [h]
    rfl

def Deeper.KeepsEncoder (deeper : Deeper) : Prop :=
  ∀ c p, Ensures Context.EncodesPlainly (fun _ => True) (deeper.test c p)

namespace Render

variable {deeper : Deeper}

theorem encodesPlainly_invariant : Invariant Context.EncodesPlainly (fun _ => True) fun _ => True where
  push _ h := h
  pop _ h := h
  set _ _ _ h _ := h
  empty := trivial
  append _ _ _ _ := trivial
  literal _ _ _ := trivial
  index _ := trivial
  element _ _ _ _ _ _ := trivial

theorem encodesPlainly_passage : Passage Context.EncodesPlainly fun _ => Context.EncodesPlainly where
  enter _ _ h _ _ := h
  leave _ _ h := h
  note _ _ _ h := h

theorem keepsEncoder_test (h : deeper.KeepsEncoder) (c : Condition) (p : Parameter) :
    Ensures Context.EncodesPlainly (fun _ => True) (c.test deeper p) :=
  Condition.agree_test encodesPlainly_passage (fun _ => h) c p

theorem keepsEncoder_level (n : Nat) : (Deeper.level n).KeepsEncoder := by
  induction n with
  | zero => exact fun _ _ => agree_get_bind fun _ _ => ensures_throw _
  | succ n ih => exact keepsEncoder_test ih

/-- A stored pattern is rendered as a child, so that it leaves the encoder alone in any case. -/
theorem keepsEncoder_evaluate (deeper : Deeper) (evaluator : Evaluator) :
    Ensures Context.EncodesPlainly (fun _ => True) (evaluator.evaluate deeper) := by
  refine Evaluator.agree_evaluate encodesPlainly_passage trivial (fun _ _ _ _ _ => trivial) (fun _ _ _ _ _ => trivial)
    (fun key arguments _ => ?_) fun _ _ _ _ _ => trivial
  refine Evaluator.agree_renderStored encodesPlainly_passage (T := fun _ => True) trivial
    (fun _ _ => trivial) fun _ _ _ _ _ _ _ _ c _ => ?_
  have hany : Ensures (fun _ => True) (fun _ => True) (deeper.render c) :=
    fun _ _ => ⟨rfl, trivial, fun _ _ => trivial⟩
  exact hany.asChild (fun _ _ => trivial) fun _ _ h _ => h

end Render

open Render

def SamePart (q q' : BoundPart) : Prop :=
  ∀ deeper : Deeper, deeper.KeepsEncoder →
    Agree Context.EncodesPlainly (fun _ => True) (part deeper q) (part deeper q')

def SameOutput (b b' : BoundExpression) : Prop :=
  ∀ deeper : Deeper, deeper.KeepsEncoder →
    Agree Context.EncodesPlainly (fun _ => True) (parts deeper b) (parts deeper b')

structure SameCase (c c' : BoundCase) : Prop where
  isOpen : c.isOpen = c'.isOpen
  condition : c.condition = c'.condition
  body : SameOutput c.body c'.body

section

variable {q q' : BoundPart} {b b' b'' : BoundExpression} {cs cs' : List BoundCase}

theorem SamePart.trans {q'' : BoundPart} (h : SamePart q q') (h' : SamePart q' q'') : SamePart q q'' :=
  fun deeper hdeeper => (h deeper hdeeper).trans (h' deeper hdeeper)

theorem SameOutput.nil : SameOutput [] [] :=
  fun _ _ => ensures_pure trivial

theorem SameOutput.cons (hq : SamePart q q') (h : SameOutput b b') : SameOutput (q :: b) (q' :: b') :=
  fun deeper hdeeper => agree_parts_cons encodesPlainly_invariant (hq deeper hdeeper) (h deeper hdeeper)

theorem SameOutput.trans (h : SameOutput b b') (h' : SameOutput b' b'') : SameOutput b b'' :=
  fun deeper hdeeper => (h deeper hdeeper).trans (h' deeper hdeeper)

theorem SameOutput.symm (h : SameOutput b b') : SameOutput b' b :=
  fun deeper hdeeper => (h deeper hdeeper).symm

theorem SameOutput.dropEmptyText (h : SameOutput b b') : SameOutput (.text "" :: b) b' := by
  intro deeper hdeeper ctx hctx
  have htext : parts deeper (.text "" :: b) ctx = parts deeper b ctx := by
    have hempty : part deeper (.text "") ctx = (.ok "", ctx) :=
      congrArg (fun s => (Except.ok s, ctx)) hctx.encode_empty
    rw [parts, bind_apply, hempty]
    dsimp only
    rw [bind_apply]
    rcases parts deeper b ctx with ⟨_ | s, after⟩
    · rfl
    · exact congrArg (fun s => (Except.ok s, after)) String.empty_append
  rw [htext]
  exact h deeper hdeeper ctx hctx

theorem samePart_text (s : String) : SamePart (.text s) (.text s) :=
  fun _ _ => agree_text encodesPlainly_invariant s

theorem samePart_parameter (ref : Reference) (evaluator : Evaluator) (formatter : Formatter) :
    SamePart (.parameter ref evaluator formatter) (.parameter ref evaluator formatter) :=
  fun deeper _ => agree_parameter encodesPlainly_invariant
    ⟨keepsEncoder_evaluate deeper evaluator, fun _ _ _ _ => trivial⟩

theorem samePart_group {name : String} {evaluator : Evaluator} {expander : Expander}
    {body body' : Option BoundExpression} (h : Option.Rel SameOutput body body') :
    SamePart (.group name evaluator expander body) (.group name evaluator expander body') := by
  intro deeper hdeeper
  refine agree_group encodesPlainly_invariant ⟨keepsEncoder_evaluate deeper evaluator, fun _ _ _ _ => trivial⟩
    (agree_body encodesPlainly_invariant ?_)
  cases h with
  | none => exact .none
  | some h => exact .some (h deeper hdeeper)

theorem samePart_switch {subject : Reference} {evaluator : Evaluator} {format : Option Formatter}
    {template : Option String} {n n' : Option BoundExpression}
    (hcases : ∀ (deeper : Deeper), deeper.KeepsEncoder → ∀ passes passes',
      Passes Context.EncodesPlainly (fun _ => True) passes passes' →
      Agree Context.EncodesPlainly (fun _ => True) (firstCase deeper passes cs)
        (firstCase deeper passes' cs')) (hnull : Option.Rel SameOutput n n') :
    SamePart (.switch subject evaluator format template cs n)
      (.switch subject evaluator format template cs' n') := by
  intro deeper hdeeper
  refine agree_switch encodesPlainly_invariant (C := fun _ => True)
    (keepsEncoder_evaluate deeper evaluator) (fun _ _ _ _ => trivial)
    (fun c _ p _ => keepsEncoder_test hdeeper c p) (agree_body encodesPlainly_invariant ?_)
    (hcases deeper hdeeper)
  cases hnull with
  | none => exact .none
  | some h => exact .some (h deeper hdeeper)

theorem agree_firstCase_of_sameCase (h : List.Forall₂ SameCase cs cs') {deeper : Deeper}
    (hdeeper : deeper.KeepsEncoder) {passes passes' : Condition → Run Bool}
    (hpasses : Passes Context.EncodesPlainly (fun _ => True) passes passes') :
    Agree Context.EncodesPlainly (fun _ => True) (firstCase deeper passes cs)
      (firstCase deeper passes' cs') :=
  agree_firstCase encodesPlainly_invariant
    (h.imp fun _ _ hc => ⟨trivial, hc.condition.symm, hc.body deeper hdeeper⟩) hpasses

end

end Phrasebook
