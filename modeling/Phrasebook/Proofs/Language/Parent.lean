import Phrasebook.Proofs.Language.Chain

namespace Phrasebook

open Text

theorem Text.equalIgnoringCase_self (s : List Char) : equalIgnoringCase s s = true := by
  simp [equalIgnoringCase]

theorem Text.length_eq_of_equalIgnoringCase {s t : List Char} (h : equalIgnoringCase s t = true) :
    s.length = t.length := by
  have hlower := congrArg List.length (beq_iff_eq.mp h)
  simpa [lowerAscii] using hlower

namespace Tag

theorem length_language {s : List Char} {language : String} (h : language? s = some language) :
    2 ≤ language.length := by
  rw [language?] at h
  split at h
  next hs =>
    cases h
    simp [lowerAscii]
    omega
  next => cases h

theorem length_variant {s : List Char} {v : String} (h : variant? s = some v) : 4 ≤ v.length := by
  rw [variant?] at h
  split at h
  next hs =>
    cases h
    simp [lowerAscii]
    omega
  next => cases h

theorem mem_insertVariant {v w : String} {known variants : List String}
    (h : insertVariant v known = some variants) (hw : w ∈ variants) : w = v ∨ w ∈ known := by
  induction known generalizing variants with
  | nil =>
      cases h
      exact .inl (List.mem_singleton.mp hw)
  | cons u known ih =>
      rw [insertVariant] at h
      split at h
      · cases h
      · split at h
        · cases h
          exact List.mem_cons.mp hw
        · obtain ⟨more, hmore, rfl⟩ := Option.map_eq_some_iff.mp h
          rcases List.mem_cons.mp hw with rfl | hw
          · exact .inr List.mem_cons_self
          · exact (ih hmore hw).imp_right (List.mem_cons_of_mem u)

theorem length_of_mem_variants {known variants : List String} {pieces : List (List Char)}
    (h : variants? known pieces = some variants) (hknown : ∀ v ∈ known, 4 ≤ v.length) :
    ∀ v ∈ variants, 4 ≤ v.length := by
  induction pieces generalizing known with
  | nil =>
      cases h
      exact hknown
  | cons piece pieces ih =>
      rw [variants?] at h
      obtain ⟨more, hmore, hrest⟩ := Option.bind_eq_some_iff.mp h
      obtain ⟨v, hv, hinsert⟩ := Option.bind_eq_some_iff.mp hmore
      refine ih hrest fun w hw => ?_
      rcases mem_insertVariant hinsert hw with rfl | hw
      · exact length_variant hv
      · exact hknown w hw

theorem length_of_parse? {text : String} {t : Tag} (h : parse? text = some t) :
    2 ≤ t.language.length ∧ ∀ v ∈ t.variants, 4 ≤ v.length := by
  rw [parse?] at h
  split at h
  · cases h
  · obtain ⟨language, hlanguage, h⟩ := Option.bind_eq_some_iff.mp h
    obtain ⟨variants, hvariants, rfl⟩ := Option.map_eq_some_iff.mp h
    exact ⟨length_language hlanguage, length_of_mem_variants hvariants (List.forall_mem_nil _)⟩

/-- A tag that has variants alone is longer than any that has conventions. -/
theorem length_text {text : String} {t : Tag} (h : parse? text = some t) (hextended : t.IsExtended)
    (hlocal : ¬ t.IsLocal) : 5 < t.text.length := by
  obtain ⟨language, script, region, variants⟩ := t
  obtain ⟨hlanguage, hvariants⟩ := length_of_parse? h
  simp only [IsLocal, not_or, Option.not_isSome_iff_eq_none] at hlocal
  obtain ⟨rfl, rfl⟩ := hlocal
  have hne : variants ≠ [] := by simpa [IsExtended] using hextended
  obtain ⟨v, rest, rfl⟩ := List.exists_cons_of_ne_nil hne
  have hv := hvariants v List.mem_cons_self
  have hlength := length_lt_joined language v rest
  dsimp only at hlanguage
  change 5 < (joined "-" (language :: v :: rest)).length
  omega

end Tag

def Culture.of? (tag : String) : Option Culture :=
  (known.find? fun (code, _) => equalIgnoringCase code.toList tag.toList).map Prod.snd

namespace Culture

theorem of?_ne_invariant {tag : String} {c : Culture} (h : of? tag = some c) : c ≠ invariant := by
  have hknown : ∀ entry ∈ known, entry.2 ≠ invariant := by decide
  obtain ⟨entry, hentry, rfl⟩ := Option.map_eq_some_iff.mp h
  exact hknown entry (List.mem_of_find?_eq_some hentry)

theorem isSome_of? {tag : String} (h : tag ∈ known.map Prod.fst) : (of? tag).isSome := by
  obtain ⟨entry, hentry, rfl⟩ := List.mem_map.mp h
  rw [of?, Option.isSome_map, List.find?_isSome]
  exact ⟨entry, hentry, equalIgnoringCase_self _⟩

theorem of?_eq_none {tag : String} (h : 5 < tag.length) : of? tag = none := by
  have hknown : ∀ entry ∈ known, entry.1.length ≤ 5 := by decide
  rw [of?, Option.map_eq_none_iff, List.find?_eq_none]
  intro entry hentry hequal
  have hlength := length_eq_of_equalIgnoringCase hequal
  rw [String.length_toList, String.length_toList] at hlength
  have := hknown entry hentry
  omega

end Culture

namespace Language

theorem culture_eq (l : Language) : l.culture = (l.chain.findSome? Culture.of?).getD .invariant := rfl

theorem culture_ne_invariant {l : Language} {code : String} (hcode : code ∈ l.chain)
    (hknown : code ∈ Culture.known.map Prod.fst) : l.culture ≠ .invariant := by
  have hfound : (l.chain.findSome? Culture.of?).isSome :=
    List.findSome?_isSome_iff.mpr ⟨code, hcode, Culture.isSome_of? hknown⟩
  obtain ⟨c, hc⟩ := Option.isSome_iff_exists.mp hfound
  obtain ⟨tag, -, htag⟩ := List.exists_of_findSome?_eq_some hc
  rw [culture_eq, hc]
  exact Culture.of?_ne_invariant htag

/-- A tag with a script or region is followed by its bare language, before all that only its fallbacks give, so that
there are conventions for it if there are any for the language. A tag with variants alone is followed by its language
only if a fallback gives it, and without fallbacks it has no conventions of its own. -/
theorem parent_follows {text : String} {tag : Tag} (hparse : Tag.parse? text = some tag)
    (hextended : tag.IsExtended) :
    (tag.IsLocal → ∀ fallbacks : List Language,
      (∃ others, (mk tag fallbacks).chain = tag.text :: tag.language :: others ∧ tag.language ∉ others ∧
        ∀ t ∈ others, ∃ fallback ∈ fallbacks, t ∈ fallback.chain) ∧
      (tag.language ∈ Culture.known.map Prod.fst → (mk tag fallbacks).culture ≠ .invariant)) ∧
    (¬ tag.IsLocal →
      (∀ fallbacks : List Language,
        tag.language ∈ (mk tag fallbacks).chain ↔ ∃ fallback ∈ fallbacks, tag.language ∈ fallback.chain) ∧
      (mk tag []).chain = [tag.text] ∧ (mk tag []).culture = .invariant) := by
  refine ⟨fun hlocal fallbacks => ?_, fun hlocal => ⟨fun fallbacks => ?_, ?_⟩⟩
  · obtain ⟨others, hchain, hothers⟩ := exists_chain_eq_append (mk tag fallbacks)
    have hown : ownTags (mk tag fallbacks).tag = [tag.text, tag.language] := ownTags_of_isLocal hlocal
    rw [hown] at hchain
    have hnodup := nodup_chain (mk tag fallbacks)
    rw [hchain] at hnodup
    refine ⟨⟨others, hchain, (List.nodup_cons.mp (List.nodup_cons.mp hnodup).2).1, hothers⟩, ?_⟩
    exact culture_ne_invariant (by simp [hchain])
  · have hown : ownTags (mk tag fallbacks).tag = [tag.text] := ownTags_of_not_isLocal hlocal
    rw [chain_eq, hown, List.mem_eraseDups, List.singleton_append, List.mem_cons, List.mem_flatMap,
      or_iff_right hextended.text_ne_language.symm]
    rfl
  · have hchain : (mk tag []).chain = [tag.text] := by
      rw [chain, chainAll, List.foldl_nil, ownTags_of_not_isLocal hlocal]
    refine ⟨hchain, ?_⟩
    rw [culture_eq, hchain, List.findSome?_singleton, Culture.of?_eq_none (Tag.length_text hparse hextended hlocal)]
    rfl

theorem parent_follows_german :
    (∃ others, (mk ⟨"de", some "Latn", some "CH", ["1996"]⟩ [mk ⟨"da", none, none, []⟩ []]).chain =
      "de-Latn-CH-1996" :: "de" :: others ∧ "de" ∉ others ∧
        ∀ t ∈ others, ∃ fallback ∈ [mk ⟨"da", none, none, []⟩ []], t ∈ fallback.chain) ∧
    (mk ⟨"de", some "Latn", some "CH", ["1996"]⟩ [mk ⟨"da", none, none, []⟩ []]).culture ≠ .invariant := by
  have hparse : Tag.parse? "de-latn-ch-1996" = some ⟨"de", some "Latn", some "CH", ["1996"]⟩ := by decide +kernel
  have hfollows := (parent_follows hparse (.inl rfl)).1 (.inl rfl) [mk ⟨"da", none, none, []⟩ []]
  exact ⟨hfollows.1, hfollows.2 (by decide)⟩

/-- German in the spelling of 1996 is not followed by German and does not have its conventions. -/
theorem chain_variant_alone :
    ∃ l, parse? "de-1996" = some l ∧ l.tag.IsExtended ∧ l.tag.language = "de" ∧ "de" ∈ Culture.known.map Prod.fst ∧
      "de" ∉ l.chain ∧ l.culture = .invariant := by
  have hparse : parse? "de-1996" = some (mk ⟨"de", none, none, ["1996"]⟩ []) := rfl
  refine ⟨_, hparse, .inr (.inr (List.cons_ne_nil _ _)), rfl, by decide, ?_, by decide +kernel⟩
  rw [chain, chainAll, List.foldl_nil, ownTags_of_not_isLocal (by decide)]
  decide

end Language

end Phrasebook
