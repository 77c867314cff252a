import Phrasebook.Proofs.Evaluation.HtmlOutput
import Phrasebook.Proofs.Value.PercentsApart

namespace Phrasebook

open Text

def Dialect.tagged : Dialect :=
  { standard with transformer := some .htmlTags }

/-- A pattern without tags, and without percent signs that could be taken for markers of them. -/
def WithoutTags (pattern : String) : Prop :=
  '<' ∉ pattern.toList ∧ '%' ∉ pattern.toList

instance (pattern : String) : Decidable (WithoutTags pattern) :=
  inferInstanceAs (Decidable (_ ∧ _))

structure Lookup.WithoutTags (books : Lookup) : Prop where
  tagged : books.dialect = .tagged
  patterns : ∀ entry ∈ books.store.entries, Phrasebook.WithoutTags entry.2

theorem Formatter.Percentless.isBuiltIn {f : Formatter} (h : f.Percentless) : f.isBuiltIn = true := by
  cases f with
  | host => exact h.elim
  | _ => rfl

theorem Parameter.IsSafe.wrapping {p : Parameter} (h : p.IsSafe) :
    p.wrapping = .encoded ∨ p.wrapping = .unencoded := by
  cases h with
  | encoded h => exact .inl (isEncoded_iff.mp h).1
  | written => exact .inr rfl

/-- A text without markup, in which no marker of a tag can come about. -/
def MarkerFree (s : String) : Prop :=
  NoMarkup s.toList ∧ PercentsApart s.toList

theorem MarkerFree.law :
    WritingLaw (fun p => p.IsSafe ∧ p.PercentsApart) MarkerFree Formatter.Percentless fun s => '%' ∉ s.toList where
  empty := ⟨noMarkup_nil, rfl⟩
  append s t hs ht := by
    refine ⟨Parameter.IsSafe.law.append s t hs.1 ht.1, ?_⟩
    rw [String.toList_append]
    exact hs.2.append ht.2
  literal s hs := by
    refine ⟨Parameter.IsSafe.law.literal s trivial, ?_⟩
    rw [Encoder.encode, String.toList_ofList]
    exact percentsApart_escapeHtml (percentsApart_of_not_mem hs)
  null := ⟨.encoded rfl, .plain .null⟩
  argument s hs := ⟨.encoded rfl, .plain (.text (percentsApart_of_not_mem hs))⟩
  index _ := ⟨.encoded rfl, .plain .integer⟩
  element _ _ _ hp hvalue hitem := ⟨hp.1.element hvalue hitem, hp.2.element hvalue hitem⟩
  follow p path value hp hvalue :=
    ⟨Parameter.IsSafe.law.follow p path value hp.1 hvalue, .plain (Evaluator.percentsApart_follow hp.2.value hvalue)⟩
  withDefaultFormat _ _ hp hf := ⟨hp.1.withDefaultFormat hf.isBuiltIn, hp.2.withDefaultFormat hf⟩
  written s hs := ⟨Parameter.IsSafe.law.written s hs.1, .text hs.2, by rintro _ ⟨⟩⟩
  write _ _ _ hctx hp hf := ⟨hp.1.noMarkup_write hf.isBuiltIn hctx, hp.2.write hp.1.wrapping hf hctx⟩

theorem MarkerFree.decode {s : String} (h : MarkerFree s) : Transformer.htmlTags.decode s = s := by
  change String.ofList (restoreTags s.toList) = s
  rw [restoreTags_of_percentsApart h.2, String.ofList_toList]

namespace Dialect

theorem tagged_compile_eq_ok_iff {pattern : String} {c : Compiled} :
    tagged.compile pattern = .ok c ↔ ∃ e b, Expression.parse (Transformer.htmlTags.encode pattern) = .ok e ∧
      tagged.bind e = .ok b ∧ c = ⟨pattern, e, b, true, some .htmlTags⟩ := by
  have hparse : tagged.parse = Expression.parse := rfl
  have hsource : tagged.source pattern = Transformer.htmlTags.encode pattern := rfl
  have hencodes : tagged.encodes = true := rfl
  have htransformer : tagged.transformer = some .htmlTags := rfl
  rw [compile_eq_ok_iff, hparse, hsource, hencodes, htransformer]

theorem tagged_spells : tagged.Spells (· ≠ '%') Formatter.Percentless fun s => '%' ∉ s.toList where
  evaluators := rfl
  customParts := rfl
  formatter site format f hformat h := by
    rcases formatter_eq_ok rfl h with rfl | ⟨mode, rfl⟩ | rfl | rfl
    · trivial
    · trivial
    · exact fun hmem => hformat _ hmem rfl
    · trivial
  literal s hs := fun hmem => hs _ hmem rfl

end Dialect

theorem Compiled.keeps_markerFree {pattern : String} (hpattern : WithoutTags pattern) {c : Compiled}
    (h : Dialect.tagged.compile pattern = .ok c) :
    c.Keeps MarkerFree Formatter.Percentless fun s => '%' ∉ s.toList := by
  obtain ⟨e, b, he, hb, rfl⟩ := Dialect.tagged_compile_eq_ok_iff.mp h
  have hencode : Transformer.htmlTags.encode pattern = pattern := by
    change String.ofList (hideTags pattern.toList) = pattern
    rw [hideTags_of_not_mem hpattern.1, String.ofList_toList]
  rw [hencode] at he
  -- neither '<' nor '%' gets into a part from anywhere else
  have hwithin := Expression.within_of_parse he
  refine ⟨rfl, ?_, fun q hq => ?_, ?_⟩
  · rintro _ ⟨⟩ s hs
    rw [hs.decode]
    exact hs
  · obtain ⟨p, hcontains, hp⟩ := Dialect.exists_of_contains hb hq
    refine Dialect.tagged_spells.bindPart (fun c hc => ?_) hp
    rintro rfl
    exact hpattern.2 (hwithin p hcontains hc)
  · refine Dialect.noGroup_of_bind (fun p hp => ?_) hb
    cases p with
    | group name body => exact (hpattern.1 (hwithin _ hp List.mem_cons_self)).elim
    | _ => rfl

/-- Where percent signs are kept apart in all that values hold, the brackets that are put back into the
output for markers of tags are none of theirs: what is written for HTML has no markup. -/
theorem Compiled.noMarkup_evaluate_tagged {pattern : String} (hpattern : WithoutTags pattern) {c : Compiled}
    (hc : Dialect.tagged.compile pattern = .ok c) {ctx : Context} (hencoder : ctx.encoder = .html)
    (hlookup : ∀ books ∈ ctx.lookup, books.WithoutTags)
    (hlayers : ctx.layers.All fun p => p.isEncoded = true ∧ p.PercentsApart) {s : String}
    (hs : (c.evaluate ctx).1 = .ok s) : NoMarkup s.toList := by
  refine (MarkerFree.law.evaluates (keeps_markerFree hpattern hc) hencoder (fun books hbooks entry hentry c hc => ?_)
    (fun layer hlayer entry hentry => ?_) hs).1
  · have hplain := hlookup books hbooks
    rw [hplain.tagged] at hc
    exact keeps_markerFree (hplain.patterns entry hentry) hc
  · obtain ⟨hencoded, hpercents⟩ := hlayers layer hlayer entry hentry
    exact ⟨.encoded hencoded, hpercents⟩

namespace Engine

def seller : Engine where
  dialect := .tagged
  store := Store.empty.insert "" "offer" "" "\\> {0:uc} & {rebates}"
  encoder := .html

def rebates : ParameterSet :=
  ParameterSet.empty.set "rebates" (.plain (.list [.plain (.text "50% & <b>"), .plain (.text "5% gt%")]))

theorem seller_noMarkup :
    ∃ c s, Dialect.tagged.compile "{@offer(rebates:lc)} {rebates}" = .ok c ∧
      (c.evaluate (seller.context rebates)).1 = .ok s ∧ NoMarkup s.toList := by
  have hevaluate : (Dialect.tagged.compile "{@offer(rebates:lc)} {rebates}").toOption.any
      (fun c => (c.evaluate (seller.context rebates)).1.toOption.isSome) = true := by decide +kernel
  have hlookup : ∀ books ∈ (seller.context rebates).lookup, books.WithoutTags := by
    rintro books ⟨⟩
    exact ⟨rfl, by decide +kernel⟩
  have hlayers : (seller.context rebates).layers.All fun p => p.isEncoded = true ∧ p.PercentsApart := by
    refine List.forall_mem_singleton.mpr (ParameterSet.all_empty.set ⟨rfl, .plain (.list ?_ ?_)⟩)
    · simp only [List.forall_mem_cons]
      exact ⟨.text (by decide), .text (by decide), nofun⟩
    · simp only [List.forall_mem_cons]
      exact ⟨nofun, nofun, nofun⟩
  obtain ⟨c, hc, hsome⟩ := any_toOption_iff.mp hevaluate
  obtain ⟨s, hs⟩ := isSome_toOption_iff.mp hsome
  exact ⟨c, s, hc, hs, c.noMarkup_evaluate_tagged (by decide +kernel) hc rfl hlookup hlayers hs⟩

def marked : ParameterSet :=
  ParameterSet.empty.set "name" (.plain (.text "%%lt%%script%%gt%%"))

/-- Without percent signs kept apart, a value that is escaped is turned into a tag. -/
theorem marked_markup :
    WithoutTags "{name}" ∧ ((seller.context marked).layers.All fun p => p.isPlain = true) ∧
      ∃ c, Dialect.tagged.compile "{name}" = .ok c ∧ (c.evaluate (seller.context marked)).1 = .ok "<script>" := by
  have hevaluate : (Dialect.tagged.compile "{name}").toOption.any
      (fun c => (c.evaluate (seller.context marked)).1 = .ok "<script>") = true := by decide +kernel
  obtain ⟨c, hc, hscript⟩ := any_toOption_iff.mp hevaluate
  exact ⟨by decide +kernel, List.forall_mem_singleton.mpr (ParameterSet.all_empty.set rfl), c, hc,
    of_decide_eq_true hscript⟩

end Engine

end Phrasebook
