import Phrasebook.Engine
import Phrasebook.Proofs.Dialect.Conditions
import Phrasebook.Proofs.Dialect.Standard
import Phrasebook.Proofs.Evaluation.Lookups
import Phrasebook.Proofs.Evaluation.Traversal
import Phrasebook.Proofs.Store
import Phrasebook.Proofs.Value.Encoded

namespace Phrasebook

def Reference.isLookup (ref : Reference) : Bool :=
  ref.name.toList.head? == some '@'

/-- What a lookup brings up is written as it is, and switches see values as they are. -/
def Part.writesOnce : Part → Bool
  | .reference ref => !ref.isLookup || ref.format == ""
  | .switch subject _ _ _ => !subject.isLookup && subject.format == ""
  | .group _ _ => false
  | _ => true

/-- A pattern all parts of which write once, if it can be read at all. -/
def WritesOnce (pattern : String) : Prop :=
  ∀ e, Expression.parse pattern = .ok e → ∀ p, e.Contains p → p.writesOnce = true

instance (pattern : String) : Decidable (WritesOnce pattern) :=
  match h : Expression.parse pattern with
  | .ok e => decidable_of_iff (∀ p, e.Contains p → p.writesOnce = true)
    ⟨fun hp _ he' => Except.ok.inj (h.symm.trans he') ▸ hp, fun hp => hp e h⟩
  | .error _ => .isTrue fun _ he => nomatch h.symm.trans he

structure Lookup.WritesOnce (books : Lookup) : Prop where
  standard : books.dialect = .standard
  patterns : ∀ entry ∈ books.store.entries, Phrasebook.WritesOnce entry.2

def Evaluator.isLookup : Evaluator → Bool
  | .lookup _ _ => true
  | _ => false

def BoundPart.WritesOnce : BoundPart → Prop
  | .text _ => True
  | .parameter _ evaluator formatter => evaluator.isLookup = true → formatter = .default
  | .switch _ evaluator format _ _ _ => evaluator.isLookup = false ∧ format = none
  | .group _ _ _ _ => False
  | .custom _ _ => False

structure Compiled.WritesOnce (c : Compiled) : Prop where
  encodes : c.encodes = true
  transformer : c.transformer = none
  builtIn : ∀ q, c.bound.Contains q → q.Uses (fun f => f.isBuiltIn = true) fun _ => True
  conditions : ∀ q, c.bound.Contains q → ∀ condition ∈ q.conditions, condition.BuiltIn
  parts : ∀ q, c.bound.Contains q → q.WritesOnce

namespace Dialect

theorem isLookup_of_standard_evaluator {site : Site} {ref : Reference} {evaluator : Evaluator}
    (h : standard.evaluator site ref = .ok evaluator) (hlookup : evaluator.isLookup = true) :
    ref.isLookup = true := by
  have hrules : standard.evaluators = [.lookup, .property, .direct] := rfl
  rw [Dialect.evaluator, hrules] at h
  simp only [evaluatorFrom, acceptEvaluator?, bind_eq_ok_iff] at h
  obtain ⟨found, hfound, h⟩ := h
  cases found with
  | some e =>
      unfold lookup? at hfound
      split at hfound
      next hname => simp [Reference.isLookup, hname]
      next => cases hfound
  | none =>
      cases hproperty : property? ref with
      | some e =>
          rw [hproperty] at h
          cases h
          unfold property? at hproperty
          split at hproperty <;> cases hproperty
          cases hlookup
      | none =>
          rw [hproperty] at h
          cases h
          cases hlookup

theorem writesOnce_of_bindPart {p : Part} (hp : p.writesOnce = true) {q : BoundPart}
    (h : standard.bindPart p = .ok q) : q.WritesOnce := by
  cases p with
  | text s =>
      cases h
      trivial
  | reference ref =>
      obtain ⟨evaluator, formatter, he, hf, rfl⟩ := bindPart_reference_eq_ok_iff.mp h
      intro hlookup
      have hformat : ref.format = "" := by
        simpa [Part.writesOnce, isLookup_of_standard_evaluator he hlookup] using hp
      rw [hformat] at hf
      cases hf
      rfl
  | switch subject template cases nullCase =>
      obtain ⟨evaluator, formatter, cs, n, cs', he, hf, -, -, -, rfl⟩ := bindPart_switch_eq_ok_iff.mp h
      obtain ⟨hname, hformat⟩ : subject.isLookup = false ∧ subject.format = "" := by
        simpa [Part.writesOnce] using hp
      rw [hformat] at hf
      cases hf
      refine ⟨?_, rfl⟩
      by_contra hlookup
      rw [isLookup_of_standard_evaluator he (by simpa using hlookup)] at hname
      cases hname
  | group name body => cases hp
  | custom node =>
      obtain ⟨part, hpart, -⟩ := bindPart_custom_eq_ok_iff.mp h
      cases hpart

end Dialect

theorem Compiled.writesOnce {pattern : String} (hpattern : Phrasebook.WritesOnce pattern) {c : Compiled}
    (h : Dialect.standard.compile pattern = .ok c) : c.WritesOnce := by
  obtain ⟨e, b, he, hb, rfl⟩ := Dialect.standard_compile_eq_ok_iff.mp h
  refine ⟨rfl, rfl, fun q hq => ?_, fun q hq => ?_, fun q hq => ?_⟩
  · obtain ⟨p, -, hp⟩ := Dialect.exists_of_contains hb hq
    exact Dialect.standard_spells.bindPart (fun _ _ => trivial) hp
  · obtain ⟨p, -, hp⟩ := Dialect.exists_of_contains hb hq
    exact Dialect.bindPart_ensures (fun _ _ _ => Dialect.standard_condition_builtIn) trivial hp
  · obtain ⟨p, hcontains, hp⟩ := Dialect.exists_of_contains hb hq
    exact Dialect.writesOnce_of_bindPart (hpattern e he p hcontains) hp

def EncodedText (s s' : String) : Prop :=
  s = Encoder.html.encode s'

theorem EncodedText.append {s s' t t' : String} (hs : EncodedText s s') (ht : EncodedText t t') :
    EncodedText (s ++ t) (s' ++ t') := by
  rw [EncodedText] at hs ht ⊢
  simp [hs, ht, Encoder.encode, Text.escapeHtml, String.ofList_append]

/-- Only a formatter of a host can look at the encoder. -/
def Formatter.IgnoresEncoder (hosts : Host) : Formatter → Prop
  | .host f => ∀ p scene encoder, hosts.format f p { scene with encoder } = hosts.format f p scene
  | _ => True

theorem Formatter.ignoresEncoder {hosts : Host} {f : Formatter} (h : f.isBuiltIn = true) :
    f.IgnoresEncoder hosts := by
  cases f with
  | host => cases h
  | _ => trivial

/-- A parameter of which everything is encoded, and for whatever encoder. Plain ones are so. -/
structure Parameter.EncodesAll (hosts : Host) (p : Parameter) : Prop where
  isEncoded : p.isEncoded = true
  carries : p.Carries (Formatter.IgnoresEncoder hosts)

namespace Parameter.EncodesAll

variable {hosts : Host} {p : Parameter}

theorem null : (Parameter.plain .null).EncodesAll hosts :=
  ⟨rfl, .plain (.simple nofun nofun)⟩

theorem withDefaultFormat (h : p.EncodesAll hosts) {f : Formatter} (hf : f.isBuiltIn = true) :
    (p.withDefaultFormat f).EncodesAll hosts :=
  ⟨isEncoded_withDefaultFormat.trans h.isEncoded, h.carries.withDefaultFormat (Formatter.ignoresEncoder hf)⟩

theorem element (h : p.EncodesAll hosts) {items : List Parameter} (hvalue : p.value = .list items)
    {item : Parameter} (hitem : item ∈ items) : (p.element item).EncodesAll hosts :=
  ⟨isEncoded_element h.isEncoded hvalue hitem, h.carries.element hvalue hitem⟩

theorem follow (h : p.EncodesAll hosts) {path : List String} {part : Value}
    (hpart : Evaluator.follow p.value path = .ok part) : (Parameter.plain part).EncodesAll hosts :=
  ⟨isEncoded_plain.trans (Evaluator.isEncoded_follow (isEncoded_iff.mp h.isEncoded).2 hpart),
    h.carries.follow hpart⟩

theorem encodedText_write {ctx : Context} (h : p.EncodesAll ctx.host) {f : Formatter}
    (hf : f.IgnoresEncoder ctx.host) (hctx : ctx.encoder = .html) :
    EncodedText (p.write f ctx) (p.write f { ctx with encoder := .identity }) := by
  have happly : f.apply ctx.host { ctx.toScene with encoder := .identity } (p.atOffset ctx.zone) =
      f.apply ctx.host ctx.toScene (p.atOffset ctx.zone) := by
    apply Formatter.apply_congr
    · rfl
    · intro host hhost
      have hignores := Formatter.own?_closed hf fun f hown =>
        h.carries.own f (p.defaultFormat_atOffset ctx.zone ▸ hown)
      rw [hhost] at hignores
      exact hignores _ ctx.toScene .identity
  unfold write wrap
  dsimp only
  rw [p.wrapping_atOffset, (isEncoded_iff.mp h.isEncoded).1, hctx, happly]
  rfl

end Parameter.EncodesAll

/-- What comes up in both runs: the same to be encoded, or what has been written encoded in the one and
as it is in the other. -/
inductive EncodedParameter (hosts : Host) : Parameter → Parameter → Prop
  | same {p : Parameter} (h : p.EncodesAll hosts) : EncodedParameter hosts p p
  | written {s s' : String} (h : EncodedText s s') : EncodedParameter hosts (.unencoded s) (.unencoded s')

theorem RelatedResult.eq_map_encode {x x' : Except EvalError String} (h : RelatedResult Eq EncodedText x x') :
    x = x'.map Encoder.html.encode := by
  cases h with
  | ok hs => exact congrArg Except.ok hs
  | error he => exact congrArg Except.error he

structure EncoderDiffers (hosts : Host) (lookup : Option Lookup) (ctx ctx' : Context) : Prop where
  encoder_eq : ctx.encoder = .html
  same : ctx' = { ctx with encoder := .identity }
  host_eq : ctx.host = hosts
  lookup_eq : ctx.lookup = lookup
  layers : ctx.layers.All (Parameter.EncodesAll hosts)

open Run

section

variable {hosts : Host} {lookup : Option Lookup} {deeper : Deeper}

namespace EncoderDiffers

theorem simulation :
    Render.Simulation (fun _ => EncoderDiffers hosts lookup) (Parameter.EncodesAll hosts) EncodedText where
  push _ _ _ h := ⟨h.encoder_eq, by rw [h.same], h.host_eq, h.lookup_eq, h.layers.push⟩
  pop _ _ _ h := ⟨h.encoder_eq, by rw [h.same], h.host_eq, h.lookup_eq, h.layers.pop⟩
  set _ _ _ _ _ h hp := ⟨h.encoder_eq, by rw [h.same], h.host_eq, h.lookup_eq, h.layers.set hp⟩
  empty := rfl
  append _ _ _ _ hs ht := hs.append ht
  index _ := ⟨rfl, .plain (.simple nofun nofun)⟩
  element _ _ _ hp hvalue hitem := hp.element hvalue hitem

theorem crossing : Crossing (EncoderDiffers hosts lookup) (fun _ => EncoderDiffers hosts lookup) .equal where
  same ctx _ h := ⟨.identity, ctx.layers, ctx.maxDepth, h.same, le_rfl, fun _ => rfl⟩
  full _ _ h := .inr (by rw [h.same])
  error _ _ _ := rfl
  unresolved _ _ _ _ _ _ _ _ := rfl
  unreadable _ _ _ _ _ _ _ _ _ _ _ _ := rfl
  cyclic _ _ _ _ _ _ := rfl
  enter _ _ _ _ h _ _ := ⟨h.encoder_eq, by rw [h.same], h.host_eq, h.lookup_eq, h.layers⟩
  leave _ _ _ h := ⟨h.encoder_eq, by rw [h.same], h.host_eq, h.lookup_eq, h.layers⟩
  note _ _ _ _ h := ⟨h.encoder_eq, by rw [h.same], h.host_eq, h.lookup_eq, h.layers⟩

end EncoderDiffers

structure Deeper.EncodesOnce (hosts : Host) (lookup : Option Lookup) (deeper : Deeper) : Prop where
  render : ∀ c : Compiled, c.WritesOnce →
    Related (EncoderDiffers hosts lookup) .equal EncodedText (deeper.render c) (deeper.render c)
  test : ∀ (c : Condition) (p : Parameter), c.BuiltIn →
    Related (EncoderDiffers hosts lookup) .equal (Diagonal fun _ => True) (deeper.test c p) (deeper.test c p)

namespace Deeper.EncodesOnce

variable (h : deeper.EncodesOnce hosts lookup) (hlookup : ∀ books ∈ lookup, books.WritesOnce)

include h hlookup

theorem test_condition {c : Condition} (hc : c.BuiltIn) (p : Parameter) :
    Related (EncoderDiffers hosts lookup) .equal (Diagonal fun _ => True) (c.test deeper p)
      (c.test deeper p) := by
  refine Condition.related_test EncoderDiffers.crossing ?_ c hc.relatedHosts p
  intro ctx ctx' hctx books hbooks call text c hc p
  rw [hctx.lookup_eq] at hbooks
  rw [(hlookup books hbooks).standard] at hc
  exact h.test c p (Dialect.standard_condition_builtIn hc)

theorem evaluate_lookup {key : LookupKey} {arguments : List LookupArgument} {L : String → Prop}
    (he : (Evaluator.lookup key arguments).Uses (fun f => f.isBuiltIn = true) L) :
    Related (EncoderDiffers hosts lookup) .equal (EncodedParameter hosts)
      (Evaluator.renderStored deeper key arguments) (Evaluator.renderStored deeper key arguments) := by
  refine Evaluator.related_renderStored EncoderDiffers.crossing (.same .null) (fun s s' hs => .written hs) ?_
  intro ctx ctx' hctx books hbooks space key pattern hpattern c hc
  rw [hctx.lookup_eq] at hbooks
  have hbooks := hlookup books hbooks
  rw [hbooks.standard] at hc
  obtain ⟨tag, hentry⟩ := Store.exists_slot_of_find? hpattern
  have hpassed : (Evaluator.passAll ctx.layers .empty 0 arguments).All (Parameter.EncodesAll hosts) :=
    Evaluator.all_passAll hctx.layers .null (fun _ _ => ⟨rfl, .text⟩)
      (fun _ f ha _ hp => hp.withDefaultFormat (he _ ha f rfl)) ParameterSet.all_empty 0
  refine (h.render c (Compiled.writesOnce (hbooks.patterns _ hentry) hc)).asChild ?_ ?_
  · exact fun _ _ h =>
      ⟨h.encoder_eq, by rw [h.same], h.host_eq, h.lookup_eq, List.forall_mem_singleton.mpr hpassed⟩
  · exact fun _ _ after after' h h' =>
      ⟨h.encoder_eq, by rw [h.same, h'.same], h.host_eq, h.lookup_eq, h.layers⟩

omit h hlookup in
theorem evaluate {e : Evaluator} {F : Formatter → Prop} {L : String → Prop} (he : e.Uses F L)
    (hkind : e.isLookup = false) :
    Related (EncoderDiffers hosts lookup) .equal (Diagonal (Parameter.EncodesAll hosts)) (e.evaluate deeper)
      (e.evaluate deeper) := by
  refine Evaluator.related_evaluate EncoderDiffers.crossing ⟨rfl, .null⟩
    (fun ctx _ name hctx p hp => ⟨rfl, hctx.layers.get? hp⟩)
    (fun p path value hp hvalue => ⟨rfl, hp.2.follow hvalue⟩) ?_ ?_
  · rintro key arguments rfl
    cases hkind
  · rintro host rfl
    exact he.elim

theorem renderWith {c : Compiled} (hc : c.WritesOnce) :
    Related (EncoderDiffers hosts lookup) .equal EncodedText (c.renderWith deeper) (c.renderWith deeper) := by
  refine Render.related_renderWith EncoderDiffers.simulation 0 rfl rfl
    (Render.related_parts EncoderDiffers.simulation (fun _ q hq => ?_) 1) (fun hencodes => ?_) ?_
  · have hbuiltIn := hc.builtIn q hq
    have honce := hc.parts q hq
    have hconditions := hc.conditions q hq
    cases q with
    | text s =>
        intro ctx ctx' hctx
        rw [hctx.same, hctx.encoder_eq]
        rfl
    | parameter ref e f =>
        cases hkind : e.isLookup with
        | false =>
            refine ⟨_, evaluate hbuiltIn.1 hkind, ?_⟩
            rintro ctx _ p _ hctx ⟨rfl, hp⟩
            obtain rfl := hctx.host_eq
            rw [hctx.same]
            exact hp.encodedText_write (Formatter.ignoresEncoder hbuiltIn.2) hctx.encoder_eq
        | true =>
            -- what has been written goes out as it came up, since there is no format to change it
            obtain rfl := honce hkind
            cases e with
            | lookup key arguments =>
                refine ⟨_, h.evaluate_lookup hlookup hbuiltIn.1, ?_⟩
                rintro ctx ctx' p p' hctx (hp | hs)
                · obtain rfl := hctx.host_eq
                  rw [hctx.same]
                  exact hp.encodedText_write trivial hctx.encoder_eq
                · exact hs
            | _ => cases hkind
    | switch subject e f template cases nullCase =>
        -- its value has no format and is no lookup, so that both runs test one and the same parameter
        obtain ⟨hkind, rfl⟩ := honce
        refine ⟨evaluate hbuiltIn.1 hkind, fun _ _ p _ hp => ⟨rfl, hp⟩, fun c hc p _ => ?_⟩
        exact h.test_condition hlookup (hconditions _ (List.mem_map_of_mem hc)) p
    | group => exact honce.elim
    | custom => exact honce.elim
  · rw [hc.encodes] at hencodes
    cases hencodes
  · rw [hc.transformer]
    nofun

end Deeper.EncodesOnce

theorem Deeper.encodesOnce_level (hlookup : ∀ books ∈ lookup, books.WritesOnce) (n : Nat) :
    (level n).EncodesOnce hosts lookup := by
  induction n with
  | zero =>
      exact ⟨fun _ _ => EncoderDiffers.crossing.related_refuse,
        fun _ _ _ => EncoderDiffers.crossing.related_refuse⟩
  | succ n ih => exact ⟨fun _ hc => ih.renderWith hlookup hc, fun _ p hc => ih.test_condition hlookup hc p⟩

end

/-- Encoding is done once and changes nothing else: where no format is given to what has been written
already, what is written for HTML is what is written as it is, encoded, and a failure is the same. -/
theorem Compiled.evaluate_html {pattern : String} (hpattern : Phrasebook.WritesOnce pattern) {c : Compiled}
    (hc : Dialect.standard.compile pattern = .ok c) (ctx : Context)
    (hlookup : ∀ books ∈ ctx.lookup, books.WritesOnce) (hlayers : ctx.layers.All (Parameter.EncodesAll ctx.host)) :
    (c.evaluate { ctx with encoder := .html }).1 =
      (c.evaluate { ctx with encoder := .identity }).1.map Encoder.html.encode := by
  have hdiffers : EncoderDiffers ctx.host ctx.lookup { ctx with encoder := .html }
      { ctx with encoder := .identity } := ⟨rfl, rfl, rfl, rfl, hlayers⟩
  obtain ⟨-, hresult⟩ := ((Deeper.encodesOnce_level hlookup ctx.remaining).renderWith hlookup
    (writesOnce hpattern hc)).of_not_cut (fun _ => id) hdiffers
  rw [evaluate_apply, evaluate_apply]
  exact hresult.eq_map_encode

namespace Engine

def quoter : Engine where
  store := (Store.empty.insert "" "name" "" "{0:cf}").insert "" "quote" "" "\"{@name(0)}\" & {1}"

def quoted : ParameterSet :=
  (ParameterSet.empty.set "who" (.plain (.text "o'neill"))).set "guests"
    (.plain (.list [.plain (.text "a&b"), .plain (.text "<c>")]))

/-- Nested lookups, a list and a null case, with pattern text and values that are escaped. -/
theorem quoter_evaluate_html :
    ∃ c s, Dialect.standard.compile "{@quote(who, guests)} = {guests}#host{? &}" = .ok c ∧
      (c.evaluate { quoter.context quoted with encoder := .identity }).1 = .ok s ∧
      (c.evaluate { quoter.context quoted with encoder := .html }).1 = .ok (Encoder.html.encode s) := by
  have hevaluate : (Dialect.standard.compile "{@quote(who, guests)} = {guests}#host{? &}").toOption.any
      (fun c => (c.evaluate { quoter.context quoted with encoder := .identity }).1.toOption.isSome) = true := by
    decide +kernel
  have hlookup : ∀ books ∈ (quoter.context quoted).lookup, books.WritesOnce := by
    rintro books ⟨⟩
    exact ⟨rfl, by decide +kernel⟩
  have hset : quoted.All (Parameter.EncodesAll (quoter.context quoted).host) := by
    refine (ParameterSet.all_empty.set ⟨rfl, .text⟩).set ⟨by decide, .plain (.list ?_ ?_)⟩
    · exact List.forall_mem_cons.mpr ⟨.simple nofun nofun, List.forall_mem_singleton.mpr (.simple nofun nofun)⟩
    · exact List.forall_mem_cons.mpr ⟨nofun, List.forall_mem_singleton.mpr nofun⟩
  obtain ⟨c, hc, hsome⟩ := any_toOption_iff.mp hevaluate
  obtain ⟨s, hs⟩ := isSome_toOption_iff.mp hsome
  refine ⟨c, s, hc, hs, ?_⟩
  rw [c.evaluate_html (by decide +kernel) hc _ hlookup (List.forall_mem_singleton.mpr hset), hs]
  rfl

end Engine

end Phrasebook
