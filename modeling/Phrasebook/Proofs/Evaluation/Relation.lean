import Phrasebook.Evaluation.Render

namespace Phrasebook

inductive RelatedResult {α : Type} (X : EvalError → EvalError → Prop) (R : α → α → Prop) :
    Except EvalError α → Except EvalError α → Prop
  | ok {a a' : α} (h : R a a') : RelatedResult X R (.ok a) (.ok a')
  | error {e e' : EvalError} (h : X e e') : RelatedResult X R (.error e) (.error e')

theorem RelatedResult.refl_of {α : Type} {R : α → α → Prop} {x : Except EvalError α}
    (h : ∀ a, x = .ok a → R a a) : RelatedResult Eq R x x := by
  cases x with
  | ok a => exact .ok (h a rfl)
  | error e => exact .error rfl

theorem RelatedResult.eq {α : Type} {x x' : Except EvalError α} (h : RelatedResult Eq Eq x x') : x = x' := by
  cases h with
  | ok h => rw [h]
  | error h => rw [h]

def Diagonal {α : Type} (I : α → Prop) (a a' : α) : Prop :=
  a = a' ∧ I a

theorem Diagonal.map {α : Type} {I J : α → Prop} {f : α → α} {a a' : α} (h : Diagonal I a a')
    (hf : ∀ a, I a → J (f a)) : Diagonal J (f a) (f a') :=
  ⟨congrArg f h.1, hf a h.2⟩

/-- How two runs may fail: with errors that are related, which may look at what the first run did, or the
first run alone, with an error that cuts it off. -/
structure Failures where
  related : List Event → EvalError → EvalError → Prop
  cut : EvalError → Prop := fun _ => False

def Failures.equal : Failures := { related := fun _ => Eq }

namespace Run

variable {α β : Type} {E F : Context → Context → Prop} {X : Failures} {R R' : α → α → Prop} {S : β → β → Prop}

/-- From contexts related by `E` two runs come to contexts that are so again, and to results related by
`R` or errors related by `X`. Of the second run nothing is asked where the first is cut off. -/
def Related (E : Context → Context → Prop) (X : Failures) (R : α → α → Prop) (m m' : Run α) : Prop :=
  ∀ ctx ctx', E ctx ctx' →
    (∃ e, (m ctx).1 = .error e ∧ X.cut e) ∨
      E (m ctx).2 (m' ctx').2 ∧ RelatedResult (X.related (m ctx).2.journal) R (m ctx).1 (m' ctx').1

theorem Related.of_not_cut {m m' : Run α} (h : Related E X R m m') (hX : ∀ e, ¬ X.cut e) {ctx ctx' : Context}
    (hctx : E ctx ctx') :
    E (m ctx).2 (m' ctx').2 ∧ RelatedResult (X.related (m ctx).2.journal) R (m ctx).1 (m' ctx').1 := by
  rcases h ctx ctx' hctx with ⟨e, -, hcut⟩ | h
  · exact (hX e hcut).elim
  · exact h

theorem bind_apply (m : Run α) (f : α → Run β) (ctx : Context) :
    (m >>= f) ctx = match m ctx with
      | (.ok a, after) => f a after
      | (.error e, after) => (.error e, after) := by
  simp only [Bind.bind, ExceptT.bind, ExceptT.mk, StateT.bind]
  rcases m ctx with ⟨_ | a, after⟩ <;> rfl

theorem bind_congr {m m' : Run α} {f f' : α → Run β} {ctx : Context} (hm : m ctx = m' ctx)
    (hf : ∀ a, f a (m' ctx).2 = f' a (m' ctx).2) : (m >>= f) ctx = (m' >>= f') ctx := by
  rw [bind_apply, bind_apply, hm]
  generalize m' ctx = outcome at hf ⊢
  obtain ⟨_ | a, after⟩ := outcome
  · rfl
  · exact hf a

theorem related_pure {a a' : α} (h : R a a') : Related E X R (pure a) (pure a') :=
  fun _ _ hctx => .inr ⟨hctx, .ok h⟩

theorem related_throw {e e' : EvalError} (h : ∀ ctx ctx', E ctx ctx' → X.related ctx.journal e e') :
    Related E X R (throw e) (throw e') :=
  fun ctx ctx' hctx => .inr ⟨hctx, .error (h ctx ctx' hctx)⟩

theorem Related.bind {m m' : Run α} {f f' : α → Run β} (h : Related E X R m m')
    (hf : ∀ a a', R a a' → Related E X S (f a) (f' a')) : Related E X S (m >>= f) (m' >>= f') := by
  intro ctx ctx' hctx
  have hfirst := h ctx ctx' hctx
  rw [bind_apply, bind_apply]
  rcases hm : m ctx with ⟨result, after⟩
  rcases hm' : m' ctx' with ⟨result', after'⟩
  rw [hm, hm'] at hfirst
  rcases hfirst with ⟨e, he, hcut⟩ | ⟨hafter, hresult⟩
  · dsimp only at he
    subst he
    exact .inl ⟨e, rfl, hcut⟩
  · cases hresult with
    | ok ha => exact hf _ _ ha after after' hafter
    | error he => exact .inr ⟨hafter, .error he⟩

theorem related_get_bind {f f' : Context → Run β}
    (hf : ∀ ctx ctx', E ctx ctx' → Related E X S (f ctx) (f' ctx')) :
    Related E X S (get >>= f) (get >>= f') :=
  fun ctx ctx' hctx => hf ctx ctx' hctx ctx ctx' hctx

theorem related_modify {f f' : Context → Context} (hf : ∀ ctx ctx', E ctx ctx' → E (f ctx) (f' ctx')) :
    Related E X (fun _ _ : Unit => True) (modify f : Run Unit) (modify f') :=
  fun ctx ctx' hctx => .inr ⟨hf ctx ctx' hctx, .ok trivial⟩

theorem Related.inScope {m m' : Run α} (h : Related F X R m m')
    (hpush : ∀ ctx ctx', E ctx ctx' →
      F { ctx with layers := ctx.layers.push } { ctx' with layers := ctx'.layers.push })
    (hpop : ∀ ctx ctx', F ctx ctx' →
      E { ctx with layers := ctx.layers.pop } { ctx' with layers := ctx'.layers.pop }) :
    Related E X R (Run.inScope m) (Run.inScope m') := by
  intro ctx ctx' hctx
  exact (h _ _ (hpush ctx ctx' hctx)).imp_right (.imp_left (hpop _ _))

/-- What runs as a child changes nothing but the journal. -/
theorem Related.asChild {m m' : Run α} {space : String} {parameters : ParameterSet}
    (h : Related F X R m m')
    (henter : ∀ ctx ctx', E ctx ctx' →
      F { ctx with space, layers := [parameters] } { ctx' with space, layers := [parameters] })
    (hleave : ∀ ctx ctx' after after', E ctx ctx' → F after after' →
      E { ctx with journal := after.journal } { ctx' with journal := after'.journal }) :
    Related E X R (Run.asChild space parameters m) (Run.asChild space parameters m') := by
  intro ctx ctx' hctx
  exact (h _ _ (henter ctx ctx' hctx)).imp_right (.imp_left (hleave ctx ctx' _ _ hctx))

theorem Related.withEncoder {m m' : Run α} {encoder : Encoder} (h : Related F X R m m')
    (henter : ∀ ctx ctx', E ctx ctx' → F { ctx with encoder } { ctx' with encoder })
    (hleave : ∀ ctx ctx' after after', E ctx ctx' → F after after' →
      E { after with encoder := ctx.encoder } { after' with encoder := ctx'.encoder }) :
    Related E X R (Run.withEncoder encoder m) (Run.withEncoder encoder m') := by
  intro ctx ctx' hctx
  exact (h _ _ (henter ctx ctx' hctx)).imp_right (.imp_left (hleave ctx ctx' _ _ hctx))

theorem enter_full {call : Call} {ctx : Context} (h : ctx.maxDepth ≤ ctx.calls.length) :
    enter call ctx = (.error (.maxDepthExceeded ctx.maxDepth), ctx) :=
  if_pos h

theorem enter_cyclic {call : Call} {ctx : Context} (h : ctx.calls.length < ctx.maxDepth)
    (hname : ∃ c ∈ ctx.calls, c.name = call.name) :
    enter call ctx = (.error (.cyclicReference (ctx.calls ++ [call])), ctx) := by
  rw [enter, if_neg (Nat.not_le_of_lt h), if_pos (by simpa using hname)]

theorem enter_ok {call : Call} {ctx : Context} (h : ctx.calls.length < ctx.maxDepth)
    (hname : ∀ c ∈ ctx.calls, c.name ≠ call.name) :
    enter call ctx = (.ok (), { ctx with
      calls := ctx.calls ++ [call]
      journal := .entered (ctx.calls ++ [call]) :: ctx.journal }) := by
  rw [enter, if_neg (Nat.not_le_of_lt h), if_neg (by simpa using hname)]

/-- A lookup that the chain takes runs with the longer chain; one that it refuses does not run. The bound
of the second chain may be the looser one only where that of the first cuts it off. -/
theorem Related.within {m m' : Run α} {call : Call} (h : Related F X R m m')
    (hsame : ∀ ctx ctx', E ctx ctx' → ctx'.calls = ctx.calls ∧ ctx.maxDepth ≤ ctx'.maxDepth)
    (hfull : ∀ ctx ctx', E ctx ctx' → X.cut (.maxDepthExceeded ctx.maxDepth) ∨ ctx'.maxDepth = ctx.maxDepth ∧
      X.related ctx.journal (.maxDepthExceeded ctx.maxDepth) (.maxDepthExceeded ctx.maxDepth))
    (hcyclic : ∀ ctx ctx', E ctx ctx' → (∃ c ∈ ctx.calls, c.name = call.name) →
      X.related ctx.journal (.cyclicReference (ctx.calls ++ [call])) (.cyclicReference (ctx.calls ++ [call])))
    (henter : ∀ ctx ctx', E ctx ctx' → ctx.calls.length < ctx.maxDepth →
      (∀ c ∈ ctx.calls, c.name ≠ call.name) →
      F { ctx with calls := ctx.calls ++ [call], journal := .entered (ctx.calls ++ [call]) :: ctx.journal }
        { ctx' with calls := ctx'.calls ++ [call], journal := .entered (ctx'.calls ++ [call]) :: ctx'.journal })
    (hleave : ∀ ctx ctx', F ctx ctx' →
      E { ctx with calls := ctx.calls.dropLast } { ctx' with calls := ctx'.calls.dropLast }) :
    Related E X R (Run.within call m) (Run.within call m') := by
  intro ctx ctx' hctx
  obtain ⟨hcalls, hdepth⟩ := hsame ctx ctx' hctx
  rw [Run.within, Run.within, bind_apply, bind_apply]
  by_cases hlength : ctx.calls.length < ctx.maxDepth
  · have hlength' : ctx'.calls.length < ctx'.maxDepth := by
      rw [hcalls]
      omega
    by_cases hname : ∃ c ∈ ctx.calls, c.name = call.name
    · have hname' : ∃ c ∈ ctx'.calls, c.name = call.name := by rwa [hcalls]
      rw [enter_cyclic hlength hname, enter_cyclic hlength' hname', hcalls]
      exact .inr ⟨hctx, .error (hcyclic ctx ctx' hctx hname)⟩
    · have hnames : ∀ c ∈ ctx.calls, c.name ≠ call.name := fun c hc heq => hname ⟨c, hc, heq⟩
      have hnames' : ∀ c ∈ ctx'.calls, c.name ≠ call.name := by rwa [hcalls]
      rw [enter_ok hlength hnames, enter_ok hlength' hnames']
      exact (h _ _ (henter ctx ctx' hctx hlength hnames)).imp_right (.imp_left (hleave _ _))
  · rw [enter_full (Nat.le_of_not_lt hlength)]
    rcases hfull ctx ctx' hctx with hcut | ⟨hlimit, hrelated⟩
    · exact .inl ⟨_, rfl, hcut⟩
    · have hlength' : ctx'.maxDepth ≤ ctx'.calls.length := by
        rw [hcalls, hlimit]
        omega
      rw [enter_full hlength', hlimit]
      exact .inr ⟨hctx, .error hrelated⟩

end Run

end Phrasebook
