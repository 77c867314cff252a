import Phrasebook.Proofs.Dialect.Conditions
import Phrasebook.Proofs.Evaluation.Agree

namespace Phrasebook

open Run

def Call.IsFound (E : Context → Context → Prop) (call : Call) : Prop :=
  ∃ ctx ctx', E ctx ctx' ∧ ∃ books ∈ ctx.lookup, ∃ space key,
    call = .stored space key ∧ (books.store.find? space key ctx.language).isSome

/-- An error that tells neither of calls in progress nor of what is stored. -/
def EvalError.IsPlain : EvalError → Prop
  | .unresolvedLookup _ _ _ | .cyclicReference _ | .compile _ _ | .bind _ => False
  | _ => True

/-- The errors for a stored text that cannot be read, as a pattern or as a condition. -/
inductive Dialect.Unreadable (d : Dialect) (text : String) : EvalError → Prop
  | pattern {name : String} {e : CompileError} (h : d.compile text = .error e) : Unreadable d text (.compile name e)
  | condition {e : BindError} (h : d.condition .switchCase text = .error e) : Unreadable d text (.bind e)

/-- Nothing is found under a key, and so others are suggested. -/
def Lacks (lookup : Option Lookup) (language : Language) (space key : String) (suggested : List String) : Prop :=
  match lookup with
  | none => suggested = []
  | some books =>
    books.store.find? space key language = none ∧ suggested = Text.suggestions key (books.store.keys space)

/-- What has to hold for a lookup to be run inside another in two runs that differ at most in their
encoders, in layers that show the same values and in a looser bound of the second, which is cut off where the
first is at its own: `E` relates the contexts outside of it, `F` those while the call is in progress. Errors
are the same; where nothing is found under a key, where what is found cannot be read and where the chain refuses
a call that is on it `X` says so. -/
structure Crossing (E : Context → Context → Prop) (F : Call → Context → Context → Prop) (X : Failures) :
    Prop where
  same : ∀ ctx ctx', E ctx ctx' → ∃ encoder layers maxDepth, ctx' = { ctx with encoder, layers, maxDepth } ∧
    ctx.maxDepth ≤ maxDepth ∧ ∀ name, layers.get? name = ctx.layers.get? name
  full : ∀ ctx ctx', E ctx ctx' → X.cut (.maxDepthExceeded ctx.maxDepth) ∨ ctx'.maxDepth = ctx.maxDepth
  error : ∀ journal e, e.IsPlain → X.related journal e e
  unresolved : ∀ ctx ctx' space key suggested, E ctx ctx' → Lacks ctx.lookup ctx.language space key suggested →
    ∀ journal, X.related journal (.unresolvedLookup space key suggested) (.unresolvedLookup space key suggested)
  unreadable : ∀ ctx ctx', E ctx ctx' → ∀ books ∈ ctx.lookup, ∀ space key,
    ∀ text ∈ books.store.find? space key ctx.language, ∀ e, books.dialect.Unreadable text e →
    ∀ journal, X.related journal e e
  cyclic : ∀ ctx ctx' call, call.IsFound E → E ctx ctx' → (∃ c ∈ ctx.calls, c.name = call.name) →
    X.related ctx.journal (.cyclicReference (ctx.calls ++ [call])) (.cyclicReference (ctx.calls ++ [call]))
  enter : ∀ ctx ctx' call, call.IsFound E → E ctx ctx' → ctx.calls.length < ctx.maxDepth →
    (∀ c ∈ ctx.calls, c.name ≠ call.name) →
    F call
      { ctx with calls := ctx.calls ++ [call], journal := .entered (ctx.calls ++ [call]) :: ctx.journal }
      { ctx' with calls := ctx'.calls ++ [call], journal := .entered (ctx'.calls ++ [call]) :: ctx'.journal }
  leave : ∀ ctx ctx' call, F call ctx ctx' →
    E { ctx with calls := ctx.calls.dropLast } { ctx' with calls := ctx'.calls.dropLast }
  note : ∀ ctx ctx' call pattern, F call ctx ctx' →
    F call { ctx with journal := .compiled pattern :: ctx.journal }
      { ctx' with journal := .compiled pattern :: ctx'.journal }

/-- What has to hold for a lookup to be run inside another: `I` holds of the context outside of it,
`J` while the call is in progress. -/
structure Passage (I : Context → Prop) (J : Call → Context → Prop) : Prop where
  enter : ∀ ctx call, I ctx → ctx.calls.length < ctx.maxDepth →
    (∀ c ∈ ctx.calls, c.name ≠ call.name) →
    J call { ctx with
      calls := ctx.calls ++ [call]
      journal := .entered (ctx.calls ++ [call]) :: ctx.journal }
  leave : ∀ ctx call, J call ctx → I { ctx with calls := ctx.calls.dropLast }
  note : ∀ ctx call pattern, J call ctx →
    J call { ctx with journal := .compiled pattern :: ctx.journal }

section

variable {I : Context → Prop} {J : Call → Context → Prop}

theorem Passage.crossing (hJ : Passage I J) :
    Crossing (Diagonal I) (fun call => Diagonal (J call)) .equal where
  same := by
    rintro ctx _ ⟨rfl, -⟩
    exact ⟨ctx.encoder, ctx.layers, ctx.maxDepth, rfl, le_rfl, fun _ => rfl⟩
  full := by
    rintro ctx _ ⟨rfl, -⟩
    exact .inr rfl
  error _ _ _ := rfl
  unresolved _ _ _ _ _ _ _ _ := rfl
  unreadable _ _ _ _ _ _ _ _ _ _ _ _ := rfl
  cyclic _ _ _ _ _ _ := rfl
  enter := by
    rintro ctx _ call - ⟨rfl, hctx⟩ hlength hname
    exact ⟨rfl, hJ.enter ctx call hctx hlength hname⟩
  leave _ _ call h := h.map fun ctx hctx => hJ.leave ctx call hctx
  note _ _ call pattern h := h.map fun ctx hctx => hJ.note ctx call pattern hctx

end

section

variable {E : Context → Context → Prop} {F : Call → Context → Context → Prop}
  {X : Failures} {G : Parameter → Prop}
  {H : Parameter → Parameter → Prop} {T : String → String → Prop} {deeper deeper' : Deeper}

theorem Crossing.related_throw (hF : Crossing E F X) {α : Type} {R : α → α → Prop} {e : EvalError}
    (he : e.IsPlain) : Related E X R (throw e) (throw e) :=
  Run.related_throw fun _ _ _ => hF.error _ e he

theorem Crossing.related_unreadable (hF : Crossing E F X) {α : Type} {R : α → α → Prop} {ctx ctx' : Context}
    (hctx : E ctx ctx') {books : Lookup} (hbooks : books ∈ ctx.lookup) {space key text : String}
    (htext : text ∈ books.store.find? space key ctx.language) {call : Call} {e : EvalError}
    (he : books.dialect.Unreadable text e) : Related (F call) X R (throw e) (throw e) :=
  Run.related_throw fun after _ _ => hF.unreadable ctx ctx' hctx books hbooks space key text htext e he after.journal

theorem Crossing.related_refuse (hF : Crossing E F X) {α : Type} {R : α → α → Prop} :
    Related E X R (do throw (.maxDepthExceeded (← get).maxDepth))
      (do throw (.maxDepthExceeded (← get).maxDepth)) := by
  intro ctx ctx' hctx
  rcases hF.full ctx ctx' hctx with hcut | hlimit
  · exact .inl ⟨_, rfl, hcut⟩
  · have herror : X.related ctx.journal (.maxDepthExceeded ctx.maxDepth) (.maxDepthExceeded ctx'.maxDepth) := by
      rw [hlimit]
      exact hF.error ctx.journal (.maxDepthExceeded ctx.maxDepth) trivial
    exact .inr ⟨hctx, .error herror⟩

theorem Crossing.related_within (hF : Crossing E F X) {α : Type} {R : α → α → Prop} {call : Call}
    (hcall : call.IsFound E) {m m' : Run α} (h : Related (F call) X R m m') :
    Related E X R (Run.within call m) (Run.within call m') := by
  refine h.within (fun ctx ctx' hctx => ?_)
    (fun ctx ctx' hctx => (hF.full ctx ctx' hctx).imp_right fun hlimit => ⟨hlimit, hF.error _ _ trivial⟩)
    (fun ctx ctx' hctx => hF.cyclic ctx ctx' call hcall hctx)
    (fun ctx ctx' hctx => hF.enter ctx ctx' call hcall hctx)
    fun ctx ctx' hctx => hF.leave ctx ctx' call hctx
  obtain ⟨encoder, layers, maxDepth, rfl, hle, -⟩ := hF.same ctx ctx' hctx
  exact ⟨rfl, hle⟩

namespace Evaluator

theorem follow_cons {value : Value} (hvalue : value ≠ .null) (name : String) (path : List String) :
    follow value (name :: path) = match value.property? name with
      | some part => follow part path
      | none => .error (.unknownProperty name value.kind) := by
  cases value with
  | null => exact absurd rfl hvalue
  | _ => rfl

theorem isPlain_of_follow {value : Value} {path : List String} {e : EvalError}
    (h : follow value path = .error e) : e.IsPlain := by
  induction path generalizing value with
  | nil => cases value <;> cases h
  | cons name path ih =>
      by_cases hvalue : value = .null
      · subst hvalue
        cases h
      · rw [follow_cons hvalue] at h
        cases hpart : value.property? name with
        | none =>
            rw [hpart] at h
            cases h
            trivial
        | some part =>
            rw [hpart] at h
            exact ih h

end Evaluator

namespace Condition

theorem related_find (hF : Crossing E F X) (space : Option String) (key : String) :
    Related E X (Diagonal fun (home, text, books) => ∃ ctx ctx', E ctx ctx' ∧ books ∈ ctx.lookup ∧
      text ∈ books.store.find? home key ctx.language) (find space key) (find space key) := by
  refine related_get_bind fun ctx ctx' hctx => ?_
  obtain ⟨encoder, layers, maxDepth, rfl, -⟩ := hF.same ctx ctx' hctx
  dsimp only
  split
  · exact hF.related_throw trivial
  next books hbooks =>
    split
    · exact hF.related_throw trivial
    next text htext =>
      split
      · exact hF.related_throw trivial
      · exact related_pure ⟨rfl, ctx, _, hctx, hbooks, htext⟩

def RelatedStored (E : Context → Context → Prop) (F : Call → Context → Context → Prop)
    (X : Failures) (deeper deeper' : Deeper) : Prop :=
  ∀ ctx ctx', E ctx ctx' → ∀ books ∈ ctx.lookup, ∀ call text c,
    books.dialect.condition .switchCase text = .ok c → ∀ p,
    Related (F call) X (Diagonal fun _ => True) (deeper.test c p) (deeper'.test c p)

theorem related_testStored (hF : Crossing E F X) (h : RelatedStored E F X deeper deeper')
    (space : Option String) (key : String) (p : Parameter) :
    Related E X (Diagonal fun _ => True) (testStored deeper space key p) (testStored deeper' space key p) := by
  refine (related_find hF space key).bind ?_
  rintro ⟨home, text, books⟩ _ ⟨rfl, ctx, ctx', hctx, hbooks, htext⟩
  refine hF.related_within ⟨ctx, ctx', hctx, books, hbooks, home, key, rfl, Option.isSome_of_mem htext⟩ ?_
  split
  next e he => exact hF.related_unreadable hctx hbooks htext (.condition he)
  next c hc => exact h ctx ctx' hctx books hbooks _ text c hc p

theorem test_host (deeper : Deeper) (p : Parameter) (condition : HostCondition) (ctx : Context) :
    test deeper p (.host condition) ctx = (condition.test p ctx.toScene, ctx) := by
  have hget : (get : Run Context) ctx = (.ok ctx, ctx) := rfl
  rw [test, bind_apply, hget]
  dsimp only
  cases condition.test p ctx.toScene <;> rfl

def RelatedHosts (E : Context → Context → Prop) (X : Failures) : Condition → Prop
  | connective left _ right => RelatedHosts E X left ∧ RelatedHosts E X right
  | host condition => ∀ p ctx ctx', E ctx ctx' →
    RelatedResult (X.related ctx.journal) (Diagonal fun _ => True) (condition.test p ctx.toScene)
      (condition.test p ctx'.toScene)
  | _ => True

theorem BuiltIn.relatedHosts {c : Condition} (h : c.BuiltIn) : c.RelatedHosts E X := by
  induction c with
  | connective left connective right ihl ihr => exact ⟨ihl h.1, ihr h.2⟩
  | host => exact h.elim
  | _ => trivial

theorem related_test (hF : Crossing E F X) (h : RelatedStored E F X deeper deeper') (c : Condition)
    (hc : c.RelatedHosts E X) (p : Parameter) :
    Related E X (Diagonal fun _ => True) (c.test deeper p) (c.test deeper' p) := by
  induction c with
  | connective left connective right ihl ihr =>
      refine (ihl hc.1).bind ?_
      rintro l _ ⟨rfl, -⟩
      refine (ihr hc.2).bind ?_
      rintro r _ ⟨rfl, -⟩
      exact related_pure ⟨rfl, trivial⟩
  | stored space key => exact related_testStored hF h space key p
  | plural category =>
      refine related_get_bind fun ctx ctx' hctx => related_pure ?_
      obtain ⟨encoder, layers, maxDepth, rfl, -⟩ := hF.same ctx ctx' hctx
      exact ⟨rfl, trivial⟩
  | host condition =>
      intro ctx ctx' hctx
      rw [test_host, test_host]
      exact .inr ⟨hctx, hc p ctx ctx' hctx⟩
  | always | arithmetic | range | oneOf => exact related_pure ⟨rfl, trivial⟩

end Condition

namespace Evaluator

section

variable {layers layers' : Layers} (hget : ∀ name, layers.get? name = layers'.get? name)

include hget

theorem pass_congr (parameters : ParameterSet) (position : Nat) (a : LookupArgument) :
    pass layers parameters position a = pass layers' parameters position a := by
  cases a with
  | parameter name format =>
      simp only [pass, hget]
  | skipped | literal => rfl

theorem passAll_congr (parameters : ParameterSet) (position : Nat) (arguments : List LookupArgument) :
    passAll layers parameters position arguments = passAll layers' parameters position arguments := by
  induction arguments generalizing parameters position with
  | nil => rfl
  | cons a arguments ih =>
      rw [passAll, passAll, pass_congr hget]
      exact ih _ _

end

theorem target?_congr {ctx : Context} {layers : Layers}
    (hget : ∀ name, layers.get? name = ctx.layers.get? name) (key : LookupKey) (encoder : Encoder)
    (maxDepth : Nat) : target? key { ctx with encoder, layers, maxDepth } = target? key ctx := by
  cases key with
  | fixed => rfl
  | parameter name suffix =>
      unfold target?
      dsimp only
      rw [hget]

theorem related_renderStored (hF : Crossing E F X) {key : LookupKey} {arguments : List LookupArgument}
    (hnull : H (.plain .null) (.plain .null)) (hwritten : ∀ s s', T s s' → H (.unencoded s) (.unencoded s'))
    (h : ∀ ctx ctx', E ctx ctx' → ∀ books ∈ ctx.lookup, ∀ space key,
      ∀ pattern ∈ books.store.find? space key ctx.language, ∀ c, books.dialect.compile pattern = .ok c →
      Related (F (.stored space key)) X T
        (Run.asChild space (passAll ctx.layers .empty 0 arguments) (deeper.render c))
        (Run.asChild space (passAll ctx.layers .empty 0 arguments) (deeper'.render c))) :
    Related E X H (renderStored deeper key arguments) (renderStored deeper' key arguments) := by
  refine related_get_bind fun ctx ctx' hctx => ?_
  obtain ⟨encoder, layers, maxDepth, rfl, -, hget⟩ := hF.same ctx ctx' hctx
  rw [target?_congr hget]
  dsimp only
  split
  · exact related_pure hnull
  next space key _ =>
    have hunresolved {suggested : List String} (h : Lacks ctx.lookup ctx.language space key suggested) :
        Related E X H (throw (.unresolvedLookup space key suggested)) (throw (.unresolvedLookup space key suggested)) :=
      Run.related_throw fun after _ _ => hF.unresolved ctx _ space key suggested hctx h after.journal
    split
    next hbooks =>
      refine hunresolved ?_
      rw [hbooks]
      rfl
    next books hbooks =>
      split
      next hpattern =>
        refine hunresolved ?_
        rw [hbooks]
        exact ⟨hpattern, rfl⟩
      next pattern hpattern =>
        refine hF.related_within
          ⟨ctx, _, hctx, books, hbooks, space, key, rfl, Option.isSome_of_eq_some hpattern⟩ ?_
        split
        next e he => exact hF.related_unreadable hctx hbooks hpattern (.pattern he)
        next c hc =>
          rw [passAll_congr hget]
          have hnote : Related (F (.stored space key)) X (fun _ _ => True) (Run.note (.compiled pattern))
              (Run.note (.compiled pattern)) :=
            related_modify fun after after' hafter => hF.note after after' _ pattern hafter
          exact hnote.bind fun _ _ _ =>
            (h ctx _ hctx books hbooks space key pattern hpattern c hc).bind
              fun s s' hs => related_pure (hwritten s s' hs)

theorem evaluate_host (deeper : Deeper) (e : HostEvaluator) (ctx : Context) :
    (host e).evaluate deeper ctx = (e.evaluate ctx.toScene, ctx) := by
  have hget : (get : Run Context) ctx = (.ok ctx, ctx) := rfl
  rw [evaluate, bind_apply, hget]
  dsimp only
  cases e.evaluate ctx.toScene <;> rfl

theorem related_evaluate (hF : Crossing E F X) {evaluator : Evaluator}
    (hnull : H (.plain .null) (.plain .null))
    (hget : ∀ ctx ctx' name, E ctx ctx' → ∀ p ∈ ctx.layers.get? name, H p p)
    (hfollow : ∀ p path value, H p p → follow p.value path = .ok value → H (.plain value) (.plain value))
    (hlookup : ∀ key arguments, evaluator = .lookup key arguments →
      Related E X H (renderStored deeper key arguments) (renderStored deeper' key arguments))
    (hhost : ∀ e, evaluator = .host e → ∀ ctx ctx', E ctx ctx' →
      RelatedResult (X.related ctx.journal) H (e.evaluate ctx.toScene) (e.evaluate ctx'.toScene)) :
    Related E X H (evaluator.evaluate deeper) (evaluator.evaluate deeper') := by
  have hlayers (name : String) :
      Related E X (Diagonal fun found => ∀ p ∈ found, H p p) (Run.get? name) (Run.get? name) := by
    refine related_get_bind fun ctx ctx' hctx => related_pure ?_
    obtain ⟨encoder, layers, maxDepth, rfl, -, hsame⟩ := hF.same ctx ctx' hctx
    exact ⟨(hsame name).symm, hget ctx _ name hctx⟩
  cases evaluator with
  | direct name =>
      refine (hlayers name).bind ?_
      rintro found _ ⟨rfl, hfound⟩
      cases found with
      | none => exact related_pure hnull
      | some p => exact related_pure (hfound p rfl)
  | property base path =>
      refine (hlayers base).bind ?_
      rintro found _ ⟨rfl, hfound⟩
      split
      · exact related_pure hnull
      next p =>
        split
        next value hvalue => exact related_pure (hfollow p path value (hfound p rfl) hvalue)
        next e he => exact hF.related_throw (isPlain_of_follow he)
  | lookup key arguments => exact hlookup key arguments rfl
  | host e =>
      intro ctx ctx' hctx
      rw [evaluate_host, evaluate_host]
      exact .inr ⟨hctx, hhost e rfl ctx ctx' hctx⟩

end Evaluator

end

section

variable {I : Context → Prop} {J : Call → Context → Prop} {G : Parameter → Prop} {T : String → Prop}
  {deeper deeper' : Deeper}

theorem Condition.relatedHosts_diagonal (c : Condition) : c.RelatedHosts (Diagonal I) .equal := by
  induction c with
  | connective left connective right ihl ihr => exact ⟨ihl, ihr⟩
  | host condition =>
      rintro p ctx _ ⟨rfl, -⟩
      exact .refl_of fun _ _ => ⟨rfl, trivial⟩
  | _ => trivial

theorem Condition.agree_test (hJ : Passage I J)
    (h : ∀ call c p, Agree (J call) (fun _ => True) (deeper.test c p) (deeper'.test c p))
    (c : Condition) (p : Parameter) : Agree I (fun _ => True) (c.test deeper p) (c.test deeper' p) :=
  agree_iff_related.mpr (related_test hJ.crossing
    (fun _ _ _ _ _ call _ c _ p => agree_iff_related.mp (h call c p)) c c.relatedHosts_diagonal p)

namespace Evaluator

theorem agree_renderStored (hJ : Passage I J) {key : LookupKey} {arguments : List LookupArgument}
    (hnull : G (.plain .null)) (hwritten : ∀ s, T s → G (.unencoded s))
    (h : ∀ ctx, I ctx → ∀ books ∈ ctx.lookup, ∀ space key,
      ∀ pattern ∈ books.store.find? space key ctx.language, ∀ c, books.dialect.compile pattern = .ok c →
      Agree (J (.stored space key)) T
        (Run.asChild space (passAll ctx.layers .empty 0 arguments) (deeper.render c))
        (Run.asChild space (passAll ctx.layers .empty 0 arguments) (deeper'.render c))) :
    Agree I G (renderStored deeper key arguments) (renderStored deeper' key arguments) := by
  refine agree_iff_related.mpr (related_renderStored (T := Diagonal T) hJ.crossing ⟨rfl, hnull⟩ ?_ ?_)
  · rintro s _ ⟨rfl, hs⟩
    exact ⟨rfl, hwritten s hs⟩
  · intro ctx ctx' hctx books hbooks space key pattern hpattern c hc
    exact agree_iff_related.mp (h ctx hctx.2 books hbooks space key pattern hpattern c hc)

theorem agree_evaluate (hJ : Passage I J) {evaluator : Evaluator} (hnull : G (.plain .null))
    (hget : ∀ ctx name, I ctx → ∀ p ∈ ctx.layers.get? name, G p)
    (hfollow : ∀ p path value, G p → follow p.value path = .ok value → G (.plain value))
    (hlookup : ∀ key arguments, evaluator = .lookup key arguments →
      Agree I G (renderStored deeper key arguments) (renderStored deeper' key arguments))
    (hhost : ∀ e, evaluator = .host e → ∀ scene p, e.evaluate scene = .ok p → G p) :
    Agree I G (evaluator.evaluate deeper) (evaluator.evaluate deeper') := by
  refine agree_iff_related.mpr (related_evaluate hJ.crossing ⟨rfl, hnull⟩
    (fun ctx _ name hctx p hp => ⟨rfl, hget ctx name hctx.2 p hp⟩)
    (fun p path value hp hvalue => ⟨rfl, hfollow p path value hp.2 hvalue⟩)
    (fun key arguments hkind => agree_iff_related.mp (hlookup key arguments hkind)) ?_)
  rintro e hkind ctx _ ⟨rfl, -⟩
  exact .refl_of fun p hp => ⟨rfl, hhost e hkind _ p hp⟩

end Evaluator

end

theorem Compiled.evaluate_apply (c : Compiled) (ctx : Context) :
    c.evaluate ctx = c.renderWith (.level ctx.remaining) ctx := rfl

end Phrasebook
