import Phrasebook.Engine
import Phrasebook.Proofs.Evaluation.Writing
import Phrasebook.Proofs.Text.NoMarkup

namespace Phrasebook

open Text

theorem Formatter.noMarkup_applyOwn {f : Formatter} (hf : f.isBuiltIn = true) {p : Parameter} {s t : String}
    (hvalue : p.value = .text s) (hs : NoMarkup s.toList) {hosts : Host} {scene : Scene}
    (h : f.applyOwn hosts scene p = .ok t) : NoMarkup t.toList := by
  unfold applyOwn at h
  rw [hvalue] at h
  cases f with
  | roman =>
      simp only [Value.roman] at h
      split at h
      · exact Roman.noMarkup_write h
      · cases h
  | letterCase mode =>
      cases h
      exact (mode.recasing_apply _ s).noMarkup hs
  | formatString format =>
      cases h
      exact hs
  | default =>
      cases h
      exact hs
  | host => cases hf

/-- What may come up as a parameter where output is escaped: a value that is to be encoded, or a text
that has been written already and may be written again. -/
inductive Parameter.IsSafe : Parameter → Prop
  | encoded {p : Parameter} (h : p.isEncoded = true) : IsSafe p
  | written {s : String} {own : Option Formatter} (hs : NoMarkup s.toList)
      (hown : ∀ f ∈ own, f.isBuiltIn = true) : IsSafe ⟨.text s, own, .unencoded⟩

namespace Parameter.IsSafe

variable {p : Parameter}

theorem value (h : p.IsSafe) : p.value.isEncoded = true := by
  cases h with
  | encoded h => exact (isEncoded_iff.mp h).2
  | written => rfl

theorem withDefaultFormat (h : p.IsSafe) {f : Formatter} (hf : f.isBuiltIn = true) :
    (p.withDefaultFormat f).IsSafe := by
  cases h with
  | encoded h => exact .encoded (isEncoded_withDefaultFormat.trans h)
  | written hs =>
      refine .written hs ?_
      rintro _ ⟨⟩
      exact hf

theorem element (h : p.IsSafe) {items : List Parameter} (hvalue : p.value = .list items)
    {item : Parameter} (hitem : item ∈ items) : (p.element item).IsSafe := by
  cases h with
  | encoded h => exact .encoded (isEncoded_element h hvalue hitem)
  | written => cases hvalue

/-- A text that has been written stays free of markup through every built-in formatter, and also
where the formatter fails. -/
theorem noMarkup_write (h : p.IsSafe) {f : Formatter} (hf : f.isBuiltIn = true) {ctx : Context}
    (hctx : ctx.encoder = .html) : NoMarkup (p.write f ctx).toList := by
  cases h with
  | encoded h =>
      unfold write wrap
      dsimp only
      rw [p.wrapping_atOffset, (isEncoded_iff.mp h).1, hctx]
      dsimp only
      rw [Encoder.encode, String.toList_ofList]
      exact noMarkup_escapeHtml _
  | @written s own hs hown =>
      have happly {t : String} (h : f.apply ctx.host ctx.toScene ⟨.text s, own, .unencoded⟩ = .ok t) :
          NoMarkup t.toList := by
        refine Formatter.noMarkup_applyOwn ?_ rfl hs h
        exact Formatter.own?_closed (F := fun f => f.isBuiltIn = true) hf hown
      unfold write
      dsimp only [atOffset, wrap]
      split
      next t ht => exact happly ht
      next => exact hs

end Parameter.IsSafe

def Part.isGroup : Part → Bool
  | .group _ _ => true
  | _ => false

def WithoutGroups (pattern : String) : Prop :=
  ∀ e, Expression.parse pattern = .ok e → ∀ p, e.Contains p → p.isGroup = false

instance (pattern : String) : Decidable (WithoutGroups pattern) :=
  match h : Expression.parse pattern with
  | .ok e => decidable_of_iff (∀ p, e.Contains p → p.isGroup = false)
    ⟨fun hp _ he' => Except.ok.inj (h.symm.trans he') ▸ hp, fun hp => hp e h⟩
  | .error _ => .isTrue fun _ he => nomatch h.symm.trans he

structure Lookup.WithoutGroups (books : Lookup) : Prop where
  standard : books.dialect = .standard
  patterns : ∀ entry ∈ books.store.entries, Phrasebook.WithoutGroups entry.2

theorem Parameter.IsSafe.law :
    WritingLaw IsSafe (fun s => NoMarkup s.toList) (fun f => f.isBuiltIn = true) fun _ => True where
  empty := noMarkup_nil
  append s t hs ht := by
    rw [String.toList_append]
    exact noMarkup_append.mpr ⟨hs, ht⟩
  literal s _ := by
    rw [Encoder.encode, String.toList_ofList]
    exact noMarkup_escapeHtml _
  null := .encoded rfl
  argument _ _ := .encoded rfl
  index _ := .encoded rfl
  element _ _ _ hp hvalue hitem := hp.element hvalue hitem
  follow _ _ _ hp hvalue := .encoded (isEncoded_plain.trans (Evaluator.isEncoded_follow hp.value hvalue))
  withDefaultFormat _ _ hp hf := hp.withDefaultFormat hf
  written _ hs := .written hs (by rintro _ ⟨⟩)
  write _ _ _ hctx hp hf := hp.noMarkup_write hf hctx

theorem Dialect.noGroup_of_bind {d : Dialect} {e : Expression} (he : ∀ p, e.Contains p → p.isGroup = false)
    {b : BoundExpression} (hb : d.bind e = .ok b) (name : String) (evaluator : Evaluator) (expander : Expander)
    (body : Option BoundExpression) : ¬ b.Contains (.group name evaluator expander body) := by
  intro hq
  obtain ⟨p, hcontains, hp⟩ := exists_of_contains hb hq
  obtain ⟨body, rfl⟩ := exists_of_bindPart_group hp
  cases he _ hcontains

theorem Compiled.keeps_noMarkup {pattern : String} (hpattern : WithoutGroups pattern) {c : Compiled}
    (h : Dialect.standard.compile pattern = .ok c) :
    c.Keeps (fun s => NoMarkup s.toList) (fun f => f.isBuiltIn = true) fun _ => True := by
  obtain ⟨e, b, he, hb, rfl⟩ := Dialect.standard_compile_eq_ok_iff.mp h
  refine ⟨rfl, nofun, fun q hq => ?_, Dialect.noGroup_of_bind (hpattern e he) hb⟩
  obtain ⟨p, -, hp⟩ := Dialect.exists_of_contains hb hq
  exact Dialect.standard_spells.bindPart (fun _ _ => trivial) hp

/-- Where all parameters are to be encoded and no pattern has a group, what is written for HTML has
none of the characters that end a text or an attribute. -/
theorem Compiled.noMarkup_evaluate {pattern : String} (hpattern : WithoutGroups pattern) {c : Compiled}
    (hc : Dialect.standard.compile pattern = .ok c) {ctx : Context} (hencoder : ctx.encoder = .html)
    (hlookup : ∀ books ∈ ctx.lookup, books.WithoutGroups)
    (hlayers : ctx.layers.All fun p => p.isEncoded = true) {s : String} (hs : (c.evaluate ctx).1 = .ok s) :
    NoMarkup s.toList := by
  refine Parameter.IsSafe.law.evaluates (keeps_noMarkup hpattern hc) hencoder (fun books hbooks entry hentry c hc => ?_)
    (fun layer hlayer entry hentry => .encoded (hlayers layer hlayer entry hentry)) hs
  have hplain := hlookup books hbooks
  rw [hplain.standard] at hc
  exact keeps_noMarkup (hplain.patterns entry hentry) hc

namespace Engine

def greeter : Engine where
  store := Store.empty.insert "" "greeting" "" "\\<{0:cf}\\> {guests}"
  encoder := .html

def guests : ParameterSet :=
  ParameterSet.empty.set "guests" (.plain (.list [.plain (.text "<b>"), .plain (.text "'q'")]))

theorem greeter_noMarkup :
    ∃ c s, Dialect.standard.compile "{@greeting(guests:uc):lc} {guests}" = .ok c ∧
      (c.evaluate (greeter.context guests)).1 = .ok s ∧ NoMarkup s.toList := by
  have hevaluate : (Dialect.standard.compile "{@greeting(guests:uc):lc} {guests}").toOption.any
      (fun c => (c.evaluate (greeter.context guests)).1.toOption.isSome) = true := by decide +kernel
  have hlookup : ∀ books ∈ (greeter.context guests).lookup, books.WithoutGroups := by
    rintro books ⟨⟩
    exact ⟨rfl, by decide +kernel⟩
  have hlayers : (greeter.context guests).layers.All fun p => p.isEncoded = true :=
    List.forall_mem_singleton.mpr (ParameterSet.all_empty.set rfl)
  cases hc : Dialect.standard.compile "{@greeting(guests:uc):lc} {guests}" with
  | error e =>
      rw [hc] at hevaluate
      cases hevaluate
  | ok c =>
      rw [hc] at hevaluate
      cases hs : (c.evaluate (greeter.context guests)).1 with
      | error e =>
          rw [Except.toOption, Option.any_some, hs] at hevaluate
          cases hevaluate
      | ok s => exact ⟨c, s, rfl, hs, c.noMarkup_evaluate (by decide +kernel) hc rfl hlookup hlayers hs⟩

end Engine

end Phrasebook
