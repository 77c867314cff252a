import Phrasebook.Engine
import Phrasebook.Proofs.Dialect.Binding
import Phrasebook.Proofs.Evaluation.Errors

namespace Phrasebook

/-- No name stands twice on the chain, and it is no longer than allowed. -/
structure SoundChain (maxDepth : Nat) (calls : List Call) : Prop where
  nodup : (calls.map Call.name).Nodup
  length_le : calls.length ≤ maxDepth

theorem SoundChain.nil (maxDepth : Nat) : SoundChain maxDepth [] :=
  ⟨List.nodup_nil, Nat.zero_le _⟩

/-- The chain after some events, latest first. It gets longer where an entered lookup is noted, and
shorter where one is left; every chain on the way is sound. -/
inductive ChainAfter (maxDepth : Nat) (start : List Call) : List Event → List Call → Prop
  | start (h : SoundChain maxDepth start) : ChainAfter maxDepth start [] start
  | compiled {events : List Event} {calls : List Call} (pattern : String)
      (h : ChainAfter maxDepth start events calls) :
      ChainAfter maxDepth start (.compiled pattern :: events) calls
  | entered {events : List Event} {calls : List Call} {call : Call}
      (h : ChainAfter maxDepth start events calls) (hsound : SoundChain maxDepth (calls ++ [call])) :
      ChainAfter maxDepth start (.entered (calls ++ [call]) :: events) (calls ++ [call])
  | left {events : List Event} {calls : List Call} {call : Call}
      (h : ChainAfter maxDepth start events (calls ++ [call])) : ChainAfter maxDepth start events calls

theorem ChainAfter.sound {maxDepth : Nat} {start calls : List Call} {events : List Event}
    (h : ChainAfter maxDepth start events calls) :
    SoundChain maxDepth calls ∧ ∀ chain, .entered chain ∈ events → SoundChain maxDepth chain := by
  induction h with
  | start h => exact ⟨h, by rintro chain ⟨⟩⟩
  | compiled pattern _ ih =>
      refine ⟨ih.1, fun chain hchain => ih.2 chain ?_⟩
      exact (List.mem_cons.mp hchain).resolve_left (by rintro ⟨⟩)
  | entered _ hsound ih =>
      refine ⟨hsound, fun chain hchain => ?_⟩
      rcases List.mem_cons.mp hchain with heq | hchain
      · exact Event.entered.inj heq ▸ hsound
      · exact ih.2 chain hchain
  | left _ ih =>
      refine ⟨⟨?_, ?_⟩, ih.2⟩
      · have := ih.1.nodup
        rw [List.map_append] at this
        exact (List.nodup_append.mp this).1
      · have := ih.1.length_le
        rw [List.length_append] at this
        omega

def CustomPart.LeavesChain (part : CustomPart) : Prop :=
  ∀ scene, (part.render scene).2.calls = scene.calls ∧ (part.render scene).2.maxDepth = scene.maxDepth

def Compiled.LeavesChain (c : Compiled) : Prop :=
  ∀ node part, c.bound.Contains (.custom node part) → part.LeavesChain

def Dialect.LeavesChain (d : Dialect) : Prop :=
  ∀ rule ∈ d.customParts, ∀ node, ∀ part ∈ rule node, part.LeavesChain

theorem Dialect.standard_leavesChain : Dialect.standard.LeavesChain := by
  rintro rule ⟨⟩

theorem Dialect.LeavesChain.compile {d : Dialect} (hd : d.LeavesChain) {pattern : String} {c : Compiled}
    (h : d.compile pattern = .ok c) : c.LeavesChain := by
  intro node part hpart
  obtain ⟨rule, hrule, hnode⟩ := Dialect.exists_rule_of_compile h hpart
  exact hd rule hrule node part hnode

/-- `n` lookups deep evaluation goes as it does; what comes below them is up to `base`. -/
def Deeper.above (base : Deeper) : Nat → Deeper
  | 0 => base
  | n + 1 => ⟨fun c => c.renderWith (above base n), fun c p => c.test (above base n) p⟩

open Run

/-- What holds of the context of a run while a chain is in progress. The run began with the journal
`old` and the chain `start`. -/
structure Running (maxDepth : Nat) (lookup : Option Lookup) (old : List Event) (start calls : List Call)
    (ctx : Context) : Prop where
  maxDepth_eq : ctx.maxDepth = maxDepth
  lookup_eq : ctx.lookup = lookup
  calls_eq : ctx.calls = calls
  journal : ∃ events, ctx.journal = events ++ old ∧ ChainAfter maxDepth start events calls

section

variable {maxDepth : Nat} {lookup : Option Lookup} {old : List Event} {start calls : List Call}

theorem Running.invariant :
    Render.Invariant (Running maxDepth lookup old start calls) (fun _ => True) fun _ => True where
  push _ h := ⟨h.1, h.2, h.3, h.4⟩
  pop _ h := ⟨h.1, h.2, h.3, h.4⟩
  set _ _ _ h _ := ⟨h.1, h.2, h.3, h.4⟩
  empty := trivial
  append _ _ _ _ := trivial
  literal _ _ _ := trivial
  index _ := trivial
  element _ _ _ _ _ _ := trivial

theorem SoundChain.concat {call : Call} (h : SoundChain maxDepth calls) (hlength : calls.length < maxDepth)
    (hname : ∀ c ∈ calls, c.name ≠ call.name) : SoundChain maxDepth (calls ++ [call]) := by
  refine ⟨?_, ?_⟩
  · rw [List.map_append, List.map_singleton, List.nodup_append]
    refine ⟨h.nodup, by simp, ?_⟩
    intro name hmem name' hmem' heq
    obtain ⟨c, hc, rfl⟩ := List.mem_map.mp hmem
    exact hname c hc (heq.trans (List.mem_singleton.mp hmem'))
  · rw [List.length_append, List.length_singleton]
    omega

theorem Running.enter {ctx : Context} {call : Call} (h : Running maxDepth lookup old start calls ctx)
    (hlength : ctx.calls.length < ctx.maxDepth) (hname : ∀ c ∈ ctx.calls, c.name ≠ call.name) :
    Running maxDepth lookup old start (calls ++ [call])
      { ctx with
        calls := ctx.calls ++ [call]
        journal := .entered (ctx.calls ++ [call]) :: ctx.journal } := by
  obtain ⟨events, hjournal, hafter⟩ := h.journal
  rw [h.calls_eq, h.maxDepth_eq] at hlength
  rw [h.calls_eq] at hname
  refine ⟨h.maxDepth_eq, h.lookup_eq, by rw [h.calls_eq], .entered (calls ++ [call]) :: events, ?_, ?_⟩
  · rw [h.calls_eq, hjournal]
    rfl
  · exact hafter.entered (hafter.sound.1.concat hlength hname)

theorem Running.leave {ctx : Context} {call : Call}
    (h : Running maxDepth lookup old start (calls ++ [call]) ctx) :
    Running maxDepth lookup old start calls { ctx with calls := ctx.calls.dropLast } := by
  obtain ⟨events, hjournal, hafter⟩ := h.journal
  exact ⟨h.maxDepth_eq, h.lookup_eq, by rw [h.calls_eq, List.dropLast_concat], events, hjournal, hafter.left⟩

theorem Running.note {ctx : Context} {pattern : String}
    (h : Running maxDepth lookup old start calls ctx) :
    Running maxDepth lookup old start calls
      { ctx with journal := .compiled pattern :: ctx.journal } := by
  obtain ⟨events, hjournal, hafter⟩ := h.journal
  refine ⟨h.maxDepth_eq, h.lookup_eq, h.calls_eq, .compiled pattern :: events, ?_, hafter.compiled pattern⟩
  rw [hjournal]
  rfl

theorem Running.passage :
    Passage (Running maxDepth lookup old start calls)
      fun call => Running maxDepth lookup old start (calls ++ [call]) where
  enter _ _ h := h.enter
  leave _ _ h := h.leave
  note _ _ _ h := h.note

structure AgreeDeeper (maxDepth : Nat) (lookup : Option Lookup) (old : List Event)
    (start calls : List Call) (deeper deeper' : Deeper) : Prop where
  render : ∀ call (c : Compiled), c.LeavesChain →
    Agree (Running maxDepth lookup old start (calls ++ [call])) (fun _ => True)
      (deeper.render c) (deeper'.render c)
  test : ∀ call (c : Condition) (p : Parameter),
    Agree (Running maxDepth lookup old start (calls ++ [call])) (fun _ => True)
      (deeper.test c p) (deeper'.test c p)

variable {deeper deeper' : Deeper}

theorem AgreeDeeper.evaluate (h : AgreeDeeper maxDepth lookup old start calls deeper deeper')
    (hlookup : ∀ books ∈ lookup, books.dialect.LeavesChain) (evaluator : Evaluator) :
    Agree (Running maxDepth lookup old start calls) (fun _ => True) (evaluator.evaluate deeper)
      (evaluator.evaluate deeper') := by
  refine Evaluator.agree_evaluate Running.passage trivial (fun _ _ _ _ _ => trivial) (fun _ _ _ _ _ => trivial)
    (fun key arguments _ => ?_) fun _ _ _ _ _ => trivial
  refine Evaluator.agree_renderStored Running.passage (T := fun _ => True) trivial (fun _ _ => trivial)
    fun ctx hctx books hbooks space key pattern _ c hc => ?_
  rw [hctx.lookup_eq] at hbooks
  exact (h.render _ c ((hlookup books hbooks).compile hc)).asChild
    (fun ctx h => ⟨h.1, h.2, h.3, h.4⟩) fun ctx after h h' => ⟨h.1, h.2, h.3, h'.4⟩

theorem AgreeDeeper.partAgrees (h : AgreeDeeper maxDepth lookup old start calls deeper deeper')
    (hlookup : ∀ books ∈ lookup, books.dialect.LeavesChain) {q : BoundPart}
    (hq : ∀ node part, q = .custom node part → part.LeavesChain) :
    Render.PartAgrees (Running maxDepth lookup old start calls) (fun _ => True) (fun _ => True)
      deeper deeper' q := by
  cases q with
  | text s => trivial
  | parameter ref evaluator formatter => exact ⟨h.evaluate hlookup evaluator, fun _ _ _ _ => trivial⟩
  | switch subject evaluator format template cases nullCase =>
      exact ⟨h.evaluate hlookup evaluator, fun _ _ _ _ => trivial,
        fun c _ p _ => Condition.agree_test Running.passage h.test c.condition p⟩
  | group name evaluator expander body => exact ⟨h.evaluate hlookup evaluator, fun _ _ _ _ => trivial⟩
  | custom node part =>
      intro ctx hctx
      obtain ⟨hcalls, hdepth⟩ := hq node part rfl ctx.toScene
      exact ⟨rfl, ⟨hdepth.trans hctx.maxDepth_eq, hctx.lookup_eq, hcalls.trans hctx.calls_eq,
        hctx.journal⟩, fun _ _ => trivial⟩

theorem AgreeDeeper.renderWith (h : AgreeDeeper maxDepth lookup old start calls deeper deeper')
    (hlookup : ∀ books ∈ lookup, books.dialect.LeavesChain) {c : Compiled} (hc : c.LeavesChain) :
    Agree (Running maxDepth lookup old start calls) (fun _ => True) (c.renderWith deeper)
      (c.renderWith deeper') := by
  refine Render.agree_renderWith Running.invariant rfl rfl (Render.agree_parts Running.invariant fun q hq => ?_)
    (fun ctx h => ⟨h.1, h.2, h.3, h.4⟩) (fun ctx after _ h => ⟨h.1, h.2, h.3, h.4⟩) fun _ _ _ _ => trivial
  refine h.partAgrees hlookup ?_
  rintro node part rfl
  exact hc node part hq

end

namespace Engine

def cyclic : Engine where
  store := (Store.empty.insert "" "a" "" "#N{@c: {@a}}").insert "" "c" "" "@c"

def isAborted {α : Type} : Except EvalError α → Bool
  | .ok _ => false
  | .error e => e.aborts

end Engine

end Phrasebook
