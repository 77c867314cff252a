import Phrasebook.Proofs.Dialect.Standard
import Phrasebook.Proofs.Evaluation.Lookups
import Phrasebook.Proofs.Evaluation.Traversal
import Phrasebook.Proofs.Store
import Phrasebook.Proofs.Value.Encoded

namespace Phrasebook

/-- What is asked of parameters `G` for texts `T` to be written of them for HTML with formatters `F` and
literal texts `L`. What has been written comes up as a parameter again. -/
structure WritingLaw (G : Parameter → Prop) (T : String → Prop) (F : Formatter → Prop) (L : String → Prop) :
    Prop where
  empty : T ""
  append : ∀ s t, T s → T t → T (s ++ t)
  literal : ∀ s, L s → T (Encoder.html.encode s)
  null : G (.plain .null)
  argument : ∀ s, L s → G (.plain (.text s))
  index : ∀ i, G (Render.index i)
  element : ∀ p items item, G p → p.value = .list items → item ∈ items → G (p.element item)
  follow : ∀ p path value, G p → Evaluator.follow p.value path = .ok value → G (.plain value)
  withDefaultFormat : ∀ p f, G p → F f → G (p.withDefaultFormat f)
  written : ∀ s, T s → G (.unencoded s)
  write : ∀ p f ctx, ctx.encoder = .html → G p → F f → T (p.write f ctx)

structure Compiled.Keeps (T : String → Prop) (F : Formatter → Prop) (L : String → Prop) (c : Compiled) : Prop where
  encodes : c.encodes = true
  decode : ∀ t ∈ c.transformer, ∀ s, T s → T (t.decode s)
  uses : ∀ q, c.bound.Contains q → q.Uses F L
  noGroup : ∀ name evaluator expander body, ¬ c.bound.Contains (.group name evaluator expander body)

def Lookup.Keeps (T : String → Prop) (F : Formatter → Prop) (L : String → Prop) (books : Lookup) : Prop :=
  ∀ entry ∈ books.store.entries, ∀ c, books.dialect.compile entry.2 = .ok c → c.Keeps T F L

structure WritingHtml (G : Parameter → Prop) (lookup : Option Lookup) (ctx : Context) : Prop where
  encoder_eq : ctx.encoder = .html
  lookup_eq : ctx.lookup = lookup
  layers : ctx.layers.All G

open Run

structure Deeper.Writes (G : Parameter → Prop) (T : String → Prop) (F : Formatter → Prop) (L : String → Prop)
    (lookup : Option Lookup) (deeper : Deeper) : Prop where
  render : ∀ c : Compiled, c.Keeps T F L → Ensures (WritingHtml G lookup) T (deeper.render c)
  test : ∀ (c : Condition) (p : Parameter), Ensures (WritingHtml G lookup) (fun _ => True) (deeper.test c p)

namespace WritingLaw

variable {G : Parameter → Prop} {T : String → Prop} {F : Formatter → Prop} {L : String → Prop}
  {lookup : Option Lookup} {deeper : Deeper}

theorem passage : Passage (WritingHtml G lookup) fun _ => WritingHtml G lookup where
  enter _ _ h _ _ := ⟨h.1, h.2, h.3⟩
  leave _ _ h := ⟨h.1, h.2, h.3⟩
  note _ _ _ h := ⟨h.1, h.2, h.3⟩

variable (law : WritingLaw G T F L)

include law

theorem simulation : Render.Simulation (fun _ => Diagonal (WritingHtml G lookup)) G (Diagonal T) where
  push := by
    rintro _ ctx _ ⟨rfl, h⟩
    exact ⟨rfl, h.encoder_eq, h.lookup_eq, h.layers.push⟩
  pop := by
    rintro _ ctx _ ⟨rfl, h⟩
    exact ⟨rfl, h.encoder_eq, h.lookup_eq, h.layers.pop⟩
  set := by
    rintro _ ctx _ name p ⟨rfl, h⟩ hp
    exact ⟨rfl, h.encoder_eq, h.lookup_eq, h.layers.set hp⟩
  empty := ⟨rfl, law.empty⟩
  append s s' t t' hs ht := ⟨by rw [hs.1, ht.1], law.append s t hs.2 ht.2⟩
  index := law.index
  element := law.element

theorem current {p : Parameter} (hp : G p) {format : Option Formatter} (hf : ∀ f ∈ format, F f) {ctx : Context}
    (hctx : ctx.encoder = .html) : G (Render.current format p ctx) := by
  cases format with
  | none => exact hp
  | some f => exact law.written _ (law.write p f ctx hctx hp (hf f rfl))

theorem evaluate (h : deeper.Writes G T F L lookup) (hlookup : ∀ books ∈ lookup, books.Keeps T F L)
    {evaluator : Evaluator} (hevaluator : evaluator.Uses F L) :
    Ensures (WritingHtml G lookup) G (evaluator.evaluate deeper) := by
  refine Evaluator.agree_evaluate passage law.null (fun ctx name hctx p hp => hctx.layers.get? hp) law.follow
    (fun key arguments hkind => ?_) fun e hkind => ?_
  · subst hkind
    refine Evaluator.agree_renderStored passage law.null law.written
      fun ctx hctx books hbooks space key pattern hpattern c hc => ?_
    rw [hctx.lookup_eq] at hbooks
    obtain ⟨tag, hentry⟩ := Store.exists_slot_of_find? hpattern
    have hpassed := Evaluator.all_passAll hctx.layers law.null (fun s hs => law.argument s (hevaluator _ hs))
      (fun _ f ha p hp => law.withDefaultFormat p f hp (hevaluator _ ha f rfl)) ParameterSet.all_empty 0
    exact (h.render c (hlookup books hbooks _ hentry c hc)).asChild
      (fun _ h => ⟨h.encoder_eq, h.lookup_eq, List.forall_mem_singleton.mpr hpassed⟩)
      fun _ _ h _ => ⟨h.1, h.2, h.3⟩
  · subst hkind
    exact hevaluator.elim

theorem part (h : deeper.Writes G T F L lookup) (hlookup : ∀ books ∈ lookup, books.Keeps T F L) {q : BoundPart}
    (hq : q.Uses F L) (hgroup : ∀ name evaluator expander body, q ≠ .group name evaluator expander body) :
    Render.PartRelated (Diagonal (WritingHtml G lookup)) .equal G (Diagonal T) deeper deeper q := by
  cases q with
  | text s =>
      rintro ctx _ ⟨rfl, hctx⟩
      rw [hctx.encoder_eq]
      exact ⟨rfl, law.literal s hq⟩
  | parameter ref evaluator formatter =>
      refine ⟨_, agree_iff_related.mp (law.evaluate h hlookup hq.1), ?_⟩
      rintro ctx _ p _ ⟨rfl, hctx⟩ ⟨rfl, hp⟩
      exact ⟨rfl, law.write p formatter _ hctx.encoder_eq hp hq.2⟩
  | switch subject evaluator format template cases nullCase =>
      refine ⟨agree_iff_related.mp (law.evaluate h hlookup hq.1), ?_, fun c _ p _ => ?_⟩
      · rintro ctx _ p ⟨rfl, hctx⟩ hp
        exact ⟨rfl, law.current hp hq.2 hctx.encoder_eq⟩
      · exact agree_iff_related.mp (Condition.agree_test passage (fun _ => h.test) c.condition p)
  | group name evaluator expander body => exact (hgroup name evaluator expander body rfl).elim
  | custom => exact hq.elim

theorem renderWith (h : deeper.Writes G T F L lookup) (hlookup : ∀ books ∈ lookup, books.Keeps T F L)
    {c : Compiled} (hc : c.Keeps T F L) : Ensures (WritingHtml G lookup) T (c.renderWith deeper) := by
  refine agree_iff_related.mpr (Render.related_renderWith law.simulation 0 rfl rfl
    (Render.related_parts law.simulation (fun _ q hq => ?_) 1) (fun hencodes => ?_) ?_)
  · refine law.part h hlookup (hc.uses q hq) ?_
    rintro name evaluator expander body rfl
    exact hc.noGroup _ _ _ _ hq
  · rw [hc.encodes] at hencodes
    cases hencodes
  · exact fun t ht s s' hs => hs.map (hc.decode t ht)

theorem level (hlookup : ∀ books ∈ lookup, books.Keeps T F L) (n : Nat) :
    (Deeper.level n).Writes G T F L lookup := by
  induction n with
  | zero =>
      exact ⟨fun _ _ => agree_get_bind fun _ _ => ensures_throw _,
        fun _ _ => agree_get_bind fun _ _ => ensures_throw _⟩
  | succ n ih =>
      exact ⟨fun c hc => law.renderWith ih hlookup hc,
        fun c p => Condition.agree_test passage (fun _ => ih.test) c p⟩

/-- What a pattern writes for HTML is one of the texts. -/
theorem evaluates {c : Compiled} (hc : c.Keeps T F L) {ctx : Context} (hencoder : ctx.encoder = .html)
    (hlookup : ∀ books ∈ ctx.lookup, books.Keeps T F L) (hlayers : ctx.layers.All G) {s : String}
    (hs : (c.evaluate ctx).1 = .ok s) : T s := by
  have hctx : WritingHtml G ctx.lookup ctx := ⟨hencoder, rfl, hlayers⟩
  have hrender := law.renderWith (law.level hlookup ctx.remaining) hlookup hc
  rw [Compiled.evaluate_apply] at hs
  exact (hrender ctx hctx).2.2 s hs

end WritingLaw

end Phrasebook
