import Phrasebook.Engine
import Phrasebook.Proofs.Distinct
import Phrasebook.Proofs.Store

namespace Phrasebook

theorem Text.length_lt_joined (s next : String) (rest : List String) :
    s.length + next.length < (joined "-" (s :: next :: rest)).length := by
  have hhyphen : "-".length = 1 := rfl
  cases rest with
  | nil =>
      simp only [joined, String.length_append]
      omega
  | cons other rest =>
      simp only [joined, String.length_append]
      omega

theorem Text.joined_cons_ne {s : String} {rest : List String} (h : rest ≠ []) : joined "-" (s :: rest) ≠ s := by
  obtain ⟨next, rest, rfl⟩ := List.exists_cons_of_ne_nil h
  intro heq
  have hlength := length_lt_joined s next rest
  rw [heq] at hlength
  omega

namespace Tag

def IsExtended (t : Tag) : Prop :=
  t.script.isSome ∨ t.region.isSome ∨ t.variants ≠ []

def IsLocal (t : Tag) : Prop :=
  t.region.isSome ∨ t.script.isSome

instance (t : Tag) : Decidable t.IsLocal :=
  inferInstanceAs (Decidable (_ ∨ _))

theorem IsLocal.isExtended {t : Tag} (h : t.IsLocal) : t.IsExtended :=
  h.elim (fun hregion => .inr (.inl hregion)) .inl

theorem IsExtended.text_ne_language {t : Tag} (h : t.IsExtended) : t.text ≠ t.language := by
  refine Text.joined_cons_ne ?_
  rcases h with h | h | h
  · obtain ⟨script, hscript⟩ := Option.isSome_iff_exists.mp h
    simp [hscript]
  · obtain ⟨region, hregion⟩ := Option.isSome_iff_exists.mp h
    simp [hregion]
  · simp [h]

end Tag

namespace Language

theorem addNew_eraseDups (tags : List String) (tag : String) :
    addNew tags.eraseDups tag = (tags ++ [tag]).eraseDups := by
  rw [eraseDups_append_singleton, addNew]
  simp

theorem foldl_addNew {tags : List String} (h : tags.Nodup) (more : List String) :
    more.foldl addNew tags = (tags ++ more).eraseDups := by
  suffices hfold : ∀ tags : List String, more.foldl addNew tags.eraseDups = (tags ++ more).eraseDups by
    rw [← hfold, eraseDups_of_nodup h]
  induction more with
  | nil => simp
  | cons tag more ih =>
      intro tags
      rw [List.foldl_cons, addNew_eraseDups, ih, List.append_assoc, List.singleton_append]

theorem ownTags_of_isLocal {t : Tag} (h : t.IsLocal) : ownTags t = [t.text, t.language] :=
  if_pos h

theorem ownTags_of_not_isLocal {t : Tag} (h : ¬ t.IsLocal) : ownTags t = [t.text] :=
  if_neg h

theorem nodup_ownTags (t : Tag) : (ownTags t).Nodup := by
  by_cases h : t.IsLocal
  · rw [ownTags_of_isLocal h]
    simpa using h.isExtended.text_ne_language
  · rw [ownTags_of_not_isLocal h]
    exact List.nodup_singleton _

theorem chainAll_eq (ls : List Language) : chainAll ls = ls.flatMap chain := by
  induction ls with
  | nil => rfl
  | cons l ls ih => rw [chainAll, ih, List.flatMap_cons]

theorem chain_eq (l : Language) : l.chain = (ownTags l.tag ++ l.fallbacks.flatMap chain).eraseDups := by
  obtain ⟨tag, fallbacks⟩ := l
  rw [chain, chainAll_eq, foldl_addNew (nodup_ownTags tag)]
  rfl

/-- What the fallbacks add comes behind a language's own tags. -/
theorem exists_chain_eq_append (l : Language) :
    ∃ others, l.chain = ownTags l.tag ++ others ∧ ∀ t ∈ others, ∃ fallback ∈ l.fallbacks, t ∈ fallback.chain := by
  refine ⟨_, by rw [chain_eq, List.eraseDups_append, eraseDups_of_nodup (nodup_ownTags l.tag)], fun t ht => ?_⟩
  have hmem := (List.mem_filter.mp (List.mem_eraseDups.mp ht)).1
  exact List.mem_flatMap.mp hmem

theorem nodup_chain (l : Language) : l.chain.Nodup := by
  rw [chain_eq]
  exact nodup_eraseDups _

theorem chain_withFallback (l fallback : Language) :
    (l.withFallback fallback).chain = (l.chain ++ fallback.chain).eraseDups := by
  rw [← foldl_addNew (nodup_chain l)]
  obtain ⟨tag, fallbacks⟩ := l
  simp only [withFallback, Language.tag, Language.fallbacks, chain, chainAll_eq, List.flatMap_append, List.foldl_append,
    List.flatMap_singleton]

end Language

/-- The tags of a language's chain are all different: first its own, then its bare language if it has a script
or region, then those of its fallbacks in the order in which these were added, each tag where it comes up first.
What is found under a key is what the first tag on this chain holds that holds anything for exactly this
namespace and key, with the empty tag tried last. -/
theorem Engine.pattern?_follows_chain (e : Engine) (writes : List (Slot × String)) (space key : String)
    (l : Language) :
    (l.chain.Nodup ∧
      l.chain = (l.tag.text :: (if l.tag.region.isSome ∨ l.tag.script.isSome then [l.tag.language] else []) ++
        l.fallbacks.flatMap Language.chain).eraseDups ∧
      ∀ fallback, (l.withFallback fallback).chain = (l.chain ++ fallback.chain).eraseDups) ∧
    (∀ pattern, { e with store := .ofWrites writes }.pattern? space key l = some pattern ↔
      ∃ before tag after, l.chain ++ [""] = before ++ tag :: after ∧
        Store.Holds writes ⟨space, key, tag⟩ pattern ∧ ∀ t ∈ before, ∀ w ∈ writes, w.1 ≠ ⟨space, key, t⟩) ∧
    ({ e with store := .ofWrites writes }.pattern? space key l = none ↔
      ∀ t ∈ l.chain ++ [""], ∀ w ∈ writes, w.1 ≠ ⟨space, key, t⟩) := by
  refine ⟨⟨l.nodup_chain, ?_, l.chain_withFallback⟩, fun pattern => ?_, ?_⟩
  · rw [Language.chain_eq, Language.ownTags]
    split <;> rfl
  · simp only [pattern?, Store.find?, List.findSome?_eq_some_iff, Store.get?_ofWrites_eq_some_iff,
      Store.get?_ofWrites_eq_none_iff]
  · simp only [pattern?, Store.find?, List.findSome?_eq_none_iff, Store.get?_ofWrites_eq_none_iff]

end Phrasebook
