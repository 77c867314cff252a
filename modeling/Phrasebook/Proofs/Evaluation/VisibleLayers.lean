import Phrasebook.Engine
import Phrasebook.Proofs.Dialect.Standard
import Phrasebook.Proofs.Evaluation.Lookups
import Phrasebook.Proofs.Evaluation.Traversal
import Phrasebook.Proofs.Value.Encoded

namespace Phrasebook

namespace Layers

/-- Layers with the same sets on top, as many as there are scopes, and below them layers of any heights
that show the same values. -/
inductive Alike : Nat → Layers → Layers → Prop
  | shown {layers layers' : Layers} (h : ∀ name, layers.get? name = layers'.get? name) :
      Alike 0 layers layers'
  | under (top : ParameterSet) {n : Nat} {layers layers' : Layers} (h : Alike n layers layers') :
      Alike (n + 1) (top :: layers) (top :: layers')

namespace Alike

variable {n : Nat} {layers layers' : Layers}

theorem get?_eq (h : Alike n layers layers') (name : String) : layers'.get? name = layers.get? name := by
  induction h with
  | shown h => exact (h name).symm
  | under top _ ih =>
      change List.findSome? _ _ = List.findSome? _ _
      rw [List.findSome?_cons, List.findSome?_cons]
      split
      · rfl
      · exact ih

theorem push (h : Alike n layers layers') : Alike (n + 1) layers.push layers'.push :=
  .under .empty h

theorem pop (h : Alike (n + 1) layers layers') : Alike n layers.pop layers'.pop := by
  cases h with
  | under top h => exact h

/-- What is set goes to a top layer that both have: nothing below it comes to light or is hidden in one of
them alone, be it null or not. -/
theorem set (h : Alike (n + 1) layers layers') (name : String) (p : Parameter) :
    Alike (n + 1) (layers.set name p) (layers'.set name p) := by
  cases h with
  | under top h => exact .under (top.set name p) h

end Alike

end Layers

@[mk_iff]
structure BoundPart.BuiltIn (q : BoundPart) : Prop where
  uses : q.Uses (fun _ => True) fun _ => True
  conditions : ∀ c ∈ q.conditions, c.BuiltIn

/-- The formatters of a host, whether values carry them or patterns ask for them, see the layers only through
the values that they show. -/
def Host.SeesShown (host : Host) : Prop :=
  ∀ f p scene layers, (∀ name, layers.get? name = scene.layers.get? name) →
    host.format f p { scene with layers } = host.format f p scene

structure LayersDiffer (lookup : Option Lookup) (n : Nat) (ctx ctx' : Context) : Prop where
  same : ctx' = { ctx with layers := ctx'.layers }
  lookup_eq : ctx.lookup = lookup
  host : ctx.host.SeesShown
  layers : ctx.layers.Alike n ctx'.layers

open Run

section

variable {lookup : Option Lookup} {n : Nat} {deeper : Deeper}

namespace LayersDiffer

theorem simulation : Render.Simulation (LayersDiffer lookup) (fun _ => True) Eq where
  push _ _ _ h := ⟨by rw [h.same], h.lookup_eq, h.host, h.layers.push⟩
  pop _ _ _ h := ⟨by rw [h.same], h.lookup_eq, h.host, h.layers.pop⟩
  set _ _ _ name p h _ := ⟨by rw [h.same], h.lookup_eq, h.host, h.layers.set name p⟩
  empty := rfl
  append _ _ _ _ hs ht := by rw [hs, ht]
  index _ := trivial
  element _ _ _ _ _ _ := trivial

theorem crossing : Crossing (LayersDiffer lookup n) (fun _ => LayersDiffer lookup n) .equal where
  same ctx ctx' h := ⟨ctx.encoder, ctx'.layers, ctx.maxDepth, h.same, le_rfl, h.layers.get?_eq⟩
  full _ _ h := .inr (by rw [h.same])
  error _ _ _ := rfl
  unresolved _ _ _ _ _ _ _ _ := rfl
  unreadable _ _ _ _ _ _ _ _ _ _ _ _ := rfl
  cyclic _ _ _ _ _ _ := rfl
  enter _ _ _ _ h _ _ := ⟨by rw [h.same], h.lookup_eq, h.host, h.layers⟩
  leave _ _ _ h := ⟨by rw [h.same], h.lookup_eq, h.host, h.layers⟩
  note _ _ _ _ h := ⟨by rw [h.same], h.lookup_eq, h.host, h.layers⟩

theorem write_eq {ctx ctx' : Context} (h : LayersDiffer lookup n ctx ctx') (p : Parameter) (f : Formatter) :
    p.write f ctx' = p.write f ctx := by
  rw [h.same]
  exact Parameter.write_congr (fun host p => h.host host p ctx.toScene ctx'.layers h.layers.get?_eq) p f

/-- The child context of a lookup has the arguments alone for its layers, so that the two runs are one from
there on. -/
theorem related_asChild (space : String) (parameters : ParameterSet) {α : Type} (m : Run α) :
    Related (LayersDiffer lookup n) .equal Eq (Run.asChild space parameters m)
      (Run.asChild space parameters m) := by
  have hself : Related Eq .equal Eq m m := by
    rintro ctx _ rfl
    exact .inr ⟨rfl, .refl_of fun _ _ => rfl⟩
  refine hself.asChild (fun ctx ctx' h => by rw [h.same]) ?_
  rintro ctx ctx' after _ h rfl
  exact ⟨by rw [h.same], h.lookup_eq, h.host, h.layers⟩

theorem evaluate {F : Formatter → Prop} {L : String → Prop} {e : Evaluator} (he : e.Uses F L) :
    Related (LayersDiffer lookup n) .equal (Diagonal fun _ => True) (e.evaluate deeper)
      (e.evaluate deeper) := by
  refine Evaluator.related_evaluate crossing ⟨rfl, trivial⟩ (fun _ _ _ _ _ _ => ⟨rfl, trivial⟩)
    (fun _ _ _ _ _ => ⟨rfl, trivial⟩) (fun key arguments _ => ?_) ?_
  · refine Evaluator.related_renderStored (T := Eq) crossing ⟨rfl, trivial⟩
      (fun s s' hs => ⟨by rw [hs], trivial⟩) ?_
    exact fun ctx _ _ _ _ space _ _ _ c _ => related_asChild space _ (deeper.render c)
  · rintro host rfl
    exact he.elim

end LayersDiffer

def Deeper.TestsShown (lookup : Option Lookup) (deeper : Deeper) : Prop :=
  ∀ n (c : Condition) (p : Parameter), c.BuiltIn →
    Related (LayersDiffer lookup n) .equal (Diagonal fun _ => True) (deeper.test c p) (deeper.test c p)

variable (hlookup : ∀ books ∈ lookup, ∀ accept, .host accept ∉ books.dialect.conditions)

include hlookup

theorem Deeper.TestsShown.test_condition (h : deeper.TestsShown lookup) {c : Condition} (hc : c.BuiltIn)
    (p : Parameter) :
    Related (LayersDiffer lookup n) .equal (Diagonal fun _ => True) (c.test deeper p)
      (c.test deeper p) := by
  refine Condition.related_test LayersDiffer.crossing ?_ c hc.relatedHosts p
  intro ctx ctx' hctx books hbooks call text c hc p
  exact h n c p (Dialect.condition_builtIn (hlookup books (hctx.lookup_eq ▸ hbooks)) hc)

theorem Deeper.testsShown_level (depth : Nat) : (level depth).TestsShown lookup := by
  induction depth with
  | zero => exact fun n c p _ => LayersDiffer.crossing.related_refuse
  | succ depth ih => exact fun n c p hc => ih.test_condition hlookup hc p

theorem BoundExpression.related_expression (h : deeper.TestsShown lookup) {e : BoundExpression}
    (he : ∀ q, e.Contains q → q.BuiltIn) :
    Related (LayersDiffer lookup n) .equal Eq (Render.expression deeper e)
      (Render.expression deeper e) := by
  refine LayersDiffer.simulation.related_inScope
    (Render.related_parts LayersDiffer.simulation (fun n q hq => ?_) (n + 1))
  have huses := (he q hq).uses
  have hconditions := (he q hq).conditions
  cases q with
  | text s =>
      intro ctx ctx' hctx
      rw [hctx.same]
  | parameter ref e f =>
      refine ⟨_, LayersDiffer.evaluate huses.1, ?_⟩
      rintro ctx ctx' p _ hctx ⟨rfl, -⟩
      exact (hctx.write_eq p f).symm
  | switch subject e f template cases nullCase =>
      refine ⟨LayersDiffer.evaluate huses.1, fun ctx ctx' p hctx _ => ?_, fun c hc p _ => ?_⟩
      · refine ⟨?_, trivial⟩
        cases f with
        | none => rfl
        | some f => exact congrArg Parameter.unencoded (hctx.write_eq p f).symm
      · exact h.test_condition hlookup (hconditions _ (List.mem_map_of_mem hc)) p
  | group name e expander body =>
      refine ⟨LayersDiffer.evaluate huses, ?_⟩
      rintro p s _ - rfl
      rfl
  | custom => exact huses.elim

end

/-- Evaluation sees the layers of parameters only through the values that they show, if the formatters that
values may carry do: where nothing else of a host is evaluated, layers of whatever heights that show the same
values give the same text or the same error. -/
theorem BoundExpression.evaluate_congr_layers {e : BoundExpression} (he : ∀ q, e.Contains q → q.BuiltIn)
    {ctx : Context} (hlookup : ∀ books ∈ ctx.lookup, ∀ accept, .host accept ∉ books.dialect.conditions)
    (hhost : ctx.host.SeesShown) {layers layers' : Layers} (h : ∀ name, layers.get? name = layers'.get? name) :
    (e.evaluate { ctx with layers }).1 = (e.evaluate { ctx with layers := layers' }).1 := by
  have hdiffer : LayersDiffer ctx.lookup 0 { ctx with layers } { ctx with layers := layers' } :=
    ⟨rfl, rfl, hhost, .shown h⟩
  obtain ⟨-, hresult⟩ := (related_expression hlookup (Deeper.testsShown_level hlookup ctx.remaining)
    he).of_not_cut (fun _ => id) hdiffer
  exact hresult.eq

namespace Engine

/-- Its formatter writes a value beside the one that is shown as `who`. -/
def welcomer : Engine where
  store := Store.empty.insert "" "seat" "" "{0} by {who}"
  host :=
    { format := fun _ p scene =>
        .ok (p.value.invariantText ++ " with " ++ ((scene.layers.get? "who").getD default).value.invariantText) }

def companions : Parameter :=
  .plain (.list [.plain (.text "ann"), .plain .null,
    (Parameter.plain (.text "bob")).withDefaultFormat (.host { kind := "CompanionFormatter" })])

def stacked : Layers :=
  [⟨[("guests", companions)]⟩, ⟨[("who", .plain (.text "eve"))]⟩]

/-- The same guests and the same host, who stands in two layers and shows through a null. -/
def overlaid : Layers :=
  [⟨[("who", .plain .null)]⟩,
    ⟨[("who", .plain (.text "eve")), ("guests", companions)]⟩,
    ⟨[("who", .plain (.text "zoe")), ("guests", .plain .null)]⟩]

def seating : BoundExpression :=
  [.switch { name := "guests" } (.direct "guests") none none
    [⟨true, "", .always,
      [.parameter { name := "#Index" } (.direct "#Index") .default, .text ". ",
        .parameter { name := "@seat", arguments := some "#, who" }
          (.lookup (.fixed "seat") [.parameter "#" none, .parameter "who" none]) .default, .text "; "]⟩] none,
    .parameter { name := "who" } (.direct "who") .default]

theorem seating_evaluate :
    stacked.length ≠ overlaid.length ∧
      (seating.evaluate { welcomer.context .empty with layers := stacked }).1.toOption =
        some "1. ann by eve; 2.  by eve; 3. bob with eve by eve; eve" ∧
      (seating.evaluate { welcomer.context .empty with layers := stacked }).1 =
        (seating.evaluate { welcomer.context .empty with layers := overlaid }).1 := by
  have hseating : ∀ q, seating.Contains q → q.BuiltIn := by
    rw [BoundExpression.forall_contains_iff]
    simp [seating, BoundPart.bodies, BoundPart.builtIn_iff, BoundPart.Uses, BoundPart.conditions,
      Evaluator.Uses, LookupArgument.Uses, Condition.BuiltIn]
    rw [BoundExpression.forall_contains_iff]
    simp [BoundPart.bodies]
  have hlookup : ∀ books ∈ (welcomer.context .empty).lookup, ∀ accept,
      .host accept ∉ books.dialect.conditions := by
    rintro books ⟨⟩ accept
    simp [welcomer, lookup, Dialect.standard, Dialect.withConditions]
  have hshown (name : String) : stacked.get? name = overlaid.get? name := by
    simp only [Layers.get?, stacked, overlaid, List.findSome?_cons, List.findSome?_nil, ParameterSet.get?,
      ParameterSet.find?]
    by_cases hguests : "guests" = Text.lowered name
    · rw [← hguests]
      rfl
    · by_cases hwho : "who" = Text.lowered name
      · rw [← hwho]
        rfl
      · simp only [if_neg hguests, if_neg hwho, Option.filter_none]
  have hhost : (welcomer.context .empty).host.SeesShown := by
    intro f p scene layers h
    simp only [context, contextFor, welcomer, h]
  refine ⟨by decide, by decide +kernel, ?_⟩
  exact BoundExpression.evaluate_congr_layers hseating hlookup hhost hshown

end Engine

end Phrasebook
