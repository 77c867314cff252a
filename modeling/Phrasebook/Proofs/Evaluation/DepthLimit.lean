import Phrasebook.Engine
import Phrasebook.Proofs.Dialect.Hosts
import Phrasebook.Proofs.Evaluation.Lookups
import Phrasebook.Proofs.Evaluation.Traversal
import Phrasebook.Proofs.Value.Encoded

namespace Phrasebook

def Scene.withLimit (scene : Scene) (limit : Nat) : Scene :=
  { scene with maxDepth := limit }

def Context.withLimit (ctx : Context) (limit : Nat) : Context :=
  { ctx with maxDepth := limit }

def Evaluator.IgnoresLimit : Evaluator → Prop
  | .host e => ∀ scene limit, e.evaluate (scene.withLimit limit) = e.evaluate scene
  | _ => True

def Condition.IgnoresLimit : Condition → Prop
  | .connective left _ right => left.IgnoresLimit ∧ right.IgnoresLimit
  | .host c => ∀ p scene limit, c.test p (scene.withLimit limit) = c.test p scene
  | _ => True

def CustomPart.IgnoresLimit (part : CustomPart) : Prop :=
  ∀ scene limit,
    part.render (scene.withLimit limit) = ((part.render scene).1, (part.render scene).2.withLimit limit)

def Compiled.IgnoresLimit (c : Compiled) : Prop :=
  ∀ q, c.bound.Contains q →
    q.BoundTo Evaluator.IgnoresLimit Condition.IgnoresLimit CustomPart.IgnoresLimit

def Dialect.IgnoresLimit (d : Dialect) : Prop :=
  d.HostsEnsure Evaluator.IgnoresLimit Condition.IgnoresLimit CustomPart.IgnoresLimit

/-- The formatters of a host, whether values carry them or patterns ask for them, do not look at the limit. -/
def Host.IgnoresLimit (host : Host) : Prop :=
  ∀ f p scene limit, host.format f p (scene.withLimit limit) = host.format f p scene

theorem Condition.BuiltIn.ignoresLimit {c : Condition} (h : c.BuiltIn) : c.IgnoresLimit := by
  induction c with
  | connective left connective right ihl ihr => exact ⟨ihl h.1, ihr h.2⟩
  | host => exact h.elim
  | _ => trivial

theorem BuiltInsEnsure.ignoresLimit : BuiltInsEnsure Evaluator.IgnoresLimit Condition.IgnoresLimit where
  evaluator e he := by
    cases e with
    | host e => exact (he e rfl).elim
    | _ => trivial
  condition _ hc := hc.ignoresLimit
  connective _ _ _ hleft hright := ⟨hleft, hright⟩

theorem CustomPart.IgnoresLimit.maxDepth_eq {part : CustomPart} (h : part.IgnoresLimit) (scene : Scene) :
    (part.render scene).2.maxDepth = scene.maxDepth :=
  -- with its own limit a scene is what it was
  congrArg (fun result => result.2.maxDepth) (h scene scene.maxDepth)

open Run

structure LimitsDiffer (limit limit' : Nat) (lookup : Option Lookup) (ctx ctx' : Context) : Prop where
  same : ctx' = ctx.withLimit limit'
  maxDepth_eq : ctx.maxDepth = limit
  lookup_eq : ctx.lookup = lookup
  host : ctx.host.IgnoresLimit

/-- The first run may end at its limit. Other than that the two fail alike. -/
def Failures.cutOff (limit : Nat) : Failures where
  related _ := Eq
  cut e := e = .maxDepthExceeded limit

structure Deeper.CutOff (limit limit' : Nat) (lookup : Option Lookup) (deeper deeper' : Deeper) : Prop where
  render : ∀ c : Compiled, c.IgnoresLimit →
    Related (LimitsDiffer limit limit' lookup) (.cutOff limit) Eq (deeper.render c) (deeper'.render c)
  test : ∀ c : Condition, c.IgnoresLimit → ∀ p,
    Related (LimitsDiffer limit limit' lookup) (.cutOff limit) (Diagonal fun _ => True) (deeper.test c p)
      (deeper'.test c p)

section

variable {limit limit' : Nat} {lookup : Option Lookup} {deeper deeper' : Deeper}

namespace LimitsDiffer

theorem simulation : Render.Simulation (fun _ => LimitsDiffer limit limit' lookup) (fun _ => True) Eq where
  push _ _ _ h := ⟨by rw [h.same]; rfl, h.maxDepth_eq, h.lookup_eq, h.host⟩
  pop _ _ _ h := ⟨by rw [h.same]; rfl, h.maxDepth_eq, h.lookup_eq, h.host⟩
  set _ _ _ _ _ h _ := ⟨by rw [h.same]; rfl, h.maxDepth_eq, h.lookup_eq, h.host⟩
  empty := rfl
  append _ _ _ _ hs ht := by rw [hs, ht]
  index _ := trivial
  element _ _ _ _ _ _ := trivial

theorem crossing (hle : limit ≤ limit') :
    Crossing (LimitsDiffer limit limit' lookup) (fun _ => LimitsDiffer limit limit' lookup) (.cutOff limit) where
  same ctx _ h := ⟨ctx.encoder, ctx.layers, limit', h.same, h.maxDepth_eq.trans_le hle, fun _ => rfl⟩
  full _ _ h := .inl (congrArg EvalError.maxDepthExceeded h.maxDepth_eq)
  error _ _ _ := rfl
  unresolved _ _ _ _ _ _ _ _ := rfl
  unreadable _ _ _ _ _ _ _ _ _ _ _ _ := rfl
  cyclic _ _ _ _ _ _ := rfl
  enter _ _ _ _ h _ _ := ⟨by rw [h.same]; rfl, h.maxDepth_eq, h.lookup_eq, h.host⟩
  leave _ _ _ h := ⟨by rw [h.same]; rfl, h.maxDepth_eq, h.lookup_eq, h.host⟩
  note _ _ _ _ h := ⟨by rw [h.same]; rfl, h.maxDepth_eq, h.lookup_eq, h.host⟩

theorem write_eq {ctx ctx' : Context} (h : LimitsDiffer limit limit' lookup ctx ctx') (p : Parameter)
    (f : Formatter) : p.write f ctx' = p.write f ctx := by
  rw [h.same]
  exact Parameter.write_congr (fun host p => h.host host p ctx.toScene limit') p f

theorem relatedHosts {c : Condition} (hc : c.IgnoresLimit) :
    c.RelatedHosts (LimitsDiffer limit limit' lookup) (.cutOff limit) := by
  induction c with
  | connective left connective right ihl ihr => exact ⟨ihl hc.1, ihr hc.2⟩
  | host condition =>
      intro p ctx ctx' hctx
      have hsame : condition.test p ctx'.toScene = condition.test p ctx.toScene := by
        rw [hctx.same]
        exact hc p ctx.toScene limit'
      rw [hsame]
      exact .refl_of fun _ _ => ⟨rfl, trivial⟩
  | _ => trivial

theorem related_custom {part : CustomPart} (h : part.IgnoresLimit) :
    Related (LimitsDiffer limit limit' lookup) (.cutOff limit) Eq (Run.onScene part.render)
      (Run.onScene part.render) := by
  intro ctx ctx' hctx
  have hrender : part.render ctx'.toScene =
      ((part.render ctx.toScene).1, (part.render ctx.toScene).2.withLimit limit') := by
    rw [hctx.same]
    exact h ctx.toScene limit'
  refine .inr ⟨⟨?_, (h.maxDepth_eq ctx.toScene).trans hctx.maxDepth_eq, hctx.lookup_eq, hctx.host⟩, ?_⟩
  · simp only [Run.onScene, hrender]
    rw [hctx.same]
    rfl
  · simp only [Run.onScene, hrender]
    exact .refl_of fun _ _ => rfl

end LimitsDiffer

namespace Deeper.CutOff

variable (hle : limit ≤ limit') (hlookup : ∀ books ∈ lookup, books.dialect.IgnoresLimit)
  (h : deeper.CutOff limit limit' lookup deeper')

include hle hlookup h

theorem test_condition {c : Condition} (hc : c.IgnoresLimit) (p : Parameter) :
    Related (LimitsDiffer limit limit' lookup) (.cutOff limit) (Diagonal fun _ => True) (c.test deeper p)
      (c.test deeper' p) := by
  refine Condition.related_test (LimitsDiffer.crossing hle) ?_ c (LimitsDiffer.relatedHosts hc) p
  intro ctx ctx' hctx books hbooks call text c hc p
  rw [hctx.lookup_eq] at hbooks
  exact h.test c ((hlookup books hbooks).condition .ignoresLimit _ _ c hc) p

theorem evaluate {e : Evaluator} (he : e.IgnoresLimit) :
    Related (LimitsDiffer limit limit' lookup) (.cutOff limit) (Diagonal fun _ => True) (e.evaluate deeper)
      (e.evaluate deeper') := by
  refine Evaluator.related_evaluate (LimitsDiffer.crossing hle) ⟨rfl, trivial⟩
    (fun _ _ _ _ _ _ => ⟨rfl, trivial⟩) (fun _ _ _ _ _ => ⟨rfl, trivial⟩) (fun key arguments _ => ?_) ?_
  · refine Evaluator.related_renderStored (T := Eq) (LimitsDiffer.crossing hle) ⟨rfl, trivial⟩
      (fun s s' hs => ⟨by rw [hs], trivial⟩) ?_
    intro ctx ctx' hctx books hbooks space key pattern _ c hc
    rw [hctx.lookup_eq] at hbooks
    refine (h.render c ((hlookup books hbooks).compile .ignoresLimit hc)).asChild ?_ ?_
    · exact fun _ _ h => ⟨by rw [h.same]; rfl, h.maxDepth_eq, h.lookup_eq, h.host⟩
    · exact fun _ _ _ _ h h' => ⟨by rw [h.same, h'.same]; rfl, h.maxDepth_eq, h.lookup_eq, h.host⟩
  · rintro e rfl ctx ctx' hctx
    have hsame : e.evaluate ctx'.toScene = e.evaluate ctx.toScene := by
      rw [hctx.same]
      exact he ctx.toScene limit'
    rw [hsame]
    exact .refl_of fun _ _ => ⟨rfl, trivial⟩

theorem partRelated {q : BoundPart}
    (hq : q.BoundTo Evaluator.IgnoresLimit Condition.IgnoresLimit CustomPart.IgnoresLimit) :
    Render.PartRelated (LimitsDiffer limit limit' lookup) (.cutOff limit) (fun _ => True) Eq deeper deeper' q := by
  cases q with
  | text s =>
      intro ctx ctx' hctx
      rw [hctx.same]
      rfl
  | parameter ref e f =>
      refine ⟨_, evaluate hle hlookup h hq, ?_⟩
      rintro ctx ctx' p _ hctx ⟨rfl, -⟩
      exact (hctx.write_eq p f).symm
  | switch subject e f template cases nullCase =>
      refine ⟨evaluate hle hlookup h hq.1, fun ctx ctx' p hctx _ => ⟨?_, trivial⟩,
        fun c hc p _ => test_condition hle hlookup h (hq.2 c hc) p⟩
      cases f with
      | none => rfl
      | some f => exact congrArg Parameter.unencoded (hctx.write_eq p f).symm
  | group name e expander body =>
      refine ⟨evaluate hle hlookup h hq, ?_⟩
      rintro p s _ - rfl
      rfl
  | custom node part => exact LimitsDiffer.related_custom hq

theorem renderWith {c : Compiled} (hc : c.IgnoresLimit) :
    Related (LimitsDiffer limit limit' lookup) (.cutOff limit) Eq (c.renderWith deeper) (c.renderWith deeper') := by
  refine Render.related_renderWith LimitsDiffer.simulation 0 rfl rfl
    (Render.related_parts LimitsDiffer.simulation (fun _ q hq => partRelated hle hlookup h (hc q hq)) 1)
    (fun _ => ⟨?_, ?_⟩) fun t _ s s' hs => by rw [hs]
  · exact fun _ _ h => ⟨by rw [h.same]; rfl, h.maxDepth_eq, h.lookup_eq, h.host⟩
  · exact fun _ _ _ _ h h' => ⟨by rw [h.same, h'.same]; rfl, h'.maxDepth_eq, h'.lookup_eq, h'.host⟩

end Deeper.CutOff

/-- More calls to go do not change what is rendered, but for what runs out of them. -/
theorem Deeper.cutOff_level (hle : limit ≤ limit') (hlookup : ∀ books ∈ lookup, books.dialect.IgnoresLimit)
    {n n' : Nat} (hn : n ≤ n') : (level n).CutOff limit limit' lookup (level n') := by
  induction n generalizing n' with
  | zero =>
      -- with no calls left every lookup of the first run ends at the limit
      exact ⟨fun _ _ _ _ hctx => .inl ⟨_, rfl, congrArg EvalError.maxDepthExceeded hctx.maxDepth_eq⟩,
        fun _ _ _ _ _ hctx => .inl ⟨_, rfl, congrArg EvalError.maxDepthExceeded hctx.maxDepth_eq⟩⟩
  | succ n ih =>
      obtain ⟨n', rfl⟩ := Nat.exists_eq_add_of_lt hn
      have hlevel := ih (Nat.le_add_right n n')
      exact ⟨fun _ hc => hlevel.renderWith hle hlookup hc, fun _ hc => hlevel.test_condition hle hlookup hc⟩

end

/-- The limit on lookups only ever cuts off: under a looser one a pattern comes to the same text or the same
error, if it did not fail for the limit. Values may carry whatever formatters, as long as these do not look at
the limit. -/
theorem Compiled.evaluate_cutOff {d : Dialect} (hd : d.IgnoresLimit) {pattern : String} {c : Compiled}
    (hc : d.compile pattern = .ok c) {ctx : Context} (hlookup : ∀ books ∈ ctx.lookup, books.dialect.IgnoresLimit)
    (hhost : ctx.host.IgnoresLimit) {limit limit' : Nat} (hle : limit ≤ limit') :
    (c.evaluate (ctx.withLimit limit)).1 = .error (.maxDepthExceeded limit) ∨
      (c.evaluate (ctx.withLimit limit)).1 = (c.evaluate (ctx.withLimit limit')).1 := by
  have hremaining : (ctx.withLimit limit).remaining ≤ (ctx.withLimit limit').remaining :=
    Nat.sub_le_sub_right hle ctx.calls.length
  have hlevel : (Deeper.level (ctx.withLimit limit).remaining).CutOff limit limit' ctx.lookup
      (Deeper.level (ctx.withLimit limit').remaining) := Deeper.cutOff_level hle hlookup hremaining
  have hignores : c.IgnoresLimit := Dialect.HostsEnsure.compile .ignoresLimit hd hc
  rw [evaluate_apply, evaluate_apply]
  rcases hlevel.renderWith hle hlookup hignores (ctx.withLimit limit) (ctx.withLimit limit')
    ⟨rfl, rfl, rfl, hhost⟩ with ⟨e, he, rfl⟩ | ⟨-, hresult⟩
  · exact .inl he
  · exact .inr hresult.eq

namespace Engine

def staged : Engine where
  store := ((Store.empty.insert "" "L1" "" "{@L2}").insert "" "L2" "" "{@L3}").insert "" "L3" "" "deep"

/-- Three lookups are as many as are needed, so that every limit from there on gives the same. -/
theorem staged_cutOff :
    ∃ c, Dialect.standard.compile "{@L1}" = .ok c ∧
      (c.evaluate ((staged.context .empty).withLimit 2)).1 = .error (.maxDepthExceeded 2) ∧
      ∀ limit, 3 ≤ limit → (c.evaluate ((staged.context .empty).withLimit limit)).1 = .ok "deep" := by
  have hevaluate : (Dialect.standard.compile "{@L1}").toOption.any (fun c =>
      (c.evaluate ((staged.context .empty).withLimit 2)).1 = .error (.maxDepthExceeded 2) ∧
        (c.evaluate ((staged.context .empty).withLimit 3)).1 = .ok "deep") = true := by
    decide +kernel
  obtain ⟨c, hc, hresults⟩ := any_toOption_iff.mp hevaluate
  obtain ⟨hcut, hdeep⟩ := of_decide_eq_true hresults
  refine ⟨c, hc, hcut, fun limit hle => ?_⟩
  have hlookup : ∀ books ∈ (staged.context .empty).lookup, books.dialect.IgnoresLimit := by
    rintro books ⟨⟩
    exact Dialect.standard_hostsEnsure
  have hsame := c.evaluate_cutOff Dialect.standard_hostsEnsure hc hlookup (fun _ _ _ _ => rfl) hle
  rw [hdeep] at hsame
  exact (hsame.resolve_left nofun).symm

end Engine

end Phrasebook
