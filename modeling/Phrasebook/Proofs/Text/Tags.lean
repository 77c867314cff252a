import Mathlib.Data.List.Infix
import Mathlib.Data.String.Basic
import Mathlib.Tactic.Tauto
import Phrasebook.Dialect.Basic

namespace Phrasebook

namespace Text

def brackets : List (Char × List Char) :=
  [('<', ['l', 't']), ('>', ['g', 't'])]

/-- A text and a form of it in which some brackets are hidden behind markers, and how many these are. -/
inductive Hides : Nat → List Char → List Char → Prop
  | nil : Hides 0 [] []
  | keep {k : Nat} {s t : List Char} (c : Char) (h : Hides k s t) : Hides k (c :: s) (c :: t)
  | bracket {k : Nat} {s t name : List Char} {c : Char} (hc : (c, name) ∈ brackets) (h : Hides k s t) :
      Hides (k + 1) (c :: s) ('%' :: '%' :: (name ++ '%' :: '%' :: t))

theorem Hides.refl (s : List Char) : Hides 0 s s := by
  induction s with
  | nil => exact .nil
  | cons c s ih => exact .keep c ih

section

variable {k j : Nat} {s s' t t' : List Char}

theorem Hides.append (h : Hides k s t) (h' : Hides j s' t') : Hides (k + j) (s ++ s') (t ++ t') := by
  induction h with
  | nil => rwa [Nat.zero_add]
  | keep c _ ih => exact .keep c ih
  | @bracket k _ _ _ _ hc _ ih =>
      have h := ih.bracket hc
      rw [Nat.add_right_comm] at h
      simpa using h

theorem eq_append_of_mem {c : Char} (h : c ∈ s) :
    s = s.takeWhile (· != c) ++ c :: (s.dropWhile (· != c)).tail := by
  induction s with
  | nil => cases h
  | cons d s ih =>
      by_cases hd : d = c
      · simp [hd]
      · have ih := ih ((List.mem_cons.mp h).resolve_left fun he => hd he.symm)
        simpa [hd] using ih

/-- The reader gets a pattern with nothing changed but brackets. -/
theorem exists_hides_hideTags (s : List Char) : ∃ k, Hides k s (hideTags s) := by
  fun_induction hideTags s with
  | case1 => exact ⟨0, .nil⟩
  | case2 s htag body rest _ _ ih =>
      obtain ⟨k, ih⟩ := ih
      rw [eq_append_of_mem htag.2]
      exact ⟨_, .keep '<' ((Hides.refl body).append (.keep '>' ih))⟩
  | case3 s htag body rest _ _ ih =>
      obtain ⟨k, ih⟩ := ih
      have hclosing := ih.bracket (show ('>', ['g', 't']) ∈ brackets by decide)
      have h := ((Hides.refl body).append hclosing).bracket (show ('<', ['l', 't']) ∈ brackets by decide)
      rw [eq_append_of_mem htag.2]
      exact ⟨_, by simpa using h⟩
  | case4 s _ ih =>
      obtain ⟨k, ih⟩ := ih
      exact ⟨k, .keep '<' ih⟩
  | case5 c s _ ih =>
      obtain ⟨k, ih⟩ := ih
      exact ⟨k, .keep c ih⟩

theorem restoreTags_cons {c : Char} (hc : c ≠ '%') (s : List Char) :
    restoreTags (c :: s) = c :: restoreTags s := by
  rw [restoreTags]
  rintro u rfl
  exact (hc rfl).elim

theorem restoreTags_percent (h : ∀ u, t = '%' :: u → u.head? = some '%') :
    restoreTags ('%' :: t) = '%' :: restoreTags t := by
  cases t with
  | nil => simp [restoreTags]
  | cons c u =>
      by_cases hc : c = '%'
      · subst hc
        obtain ⟨v, rfl⟩ := List.head?_eq_some_iff.mp (h u rfl)
        have hnone : markerName? ('%' :: v) = none := rfl
        rw [restoreTags]
        split
        next hsome => cases hnone.symm.trans hsome
        next => rfl
      · rw [restoreTags]
        rintro u' _ he
        cases he
        exact (hc rfl).elim

theorem restoreTags_marker {c : Char} {name : List Char} (hc : (c, name) ∈ brackets) (t : List Char) :
    restoreTags ('%' :: '%' :: (name ++ '%' :: '%' :: t)) = c :: restoreTags t := by
  have hname : markerName? (name ++ '%' :: '%' :: t) = some (name, t) ∧ marked name = [c] := by
    simp only [brackets, List.mem_cons, Prod.mk.injEq, List.not_mem_nil, or_false] at hc
    rcases hc with ⟨rfl, rfl⟩ | ⟨rfl, rfl⟩ <;> exact ⟨rfl, rfl⟩
  rw [restoreTags]
  split
  next name' rest hsome =>
    cases hname.1.symm.trans hsome
    rw [hname.2]
    rfl
  next hnone => cases hname.1.symm.trans hnone

/-- The markers found are the ones put in: at most one percent sign stands right before a marker, and with it
the marker is passed over by one character only. -/
theorem Hides.restoreTags_eq (h : Hides k s t) (hs : ¬ ['%', '%'] <:+: s) : restoreTags t = s := by
  induction h with
  | nil => simp [restoreTags]
  | @keep k s t c h ih =>
      have ih := ih fun hpair => hs (hpair.trans (List.infix_cons (List.infix_refl s)))
      by_cases hc : c = '%'
      · subst hc
        rw [restoreTags_percent, ih]
        rintro u rfl
        cases h with
        | keep => exact (hs (List.IsPrefix.isInfix ⟨_, rfl⟩)).elim
        | bracket => rfl
      · rw [restoreTags_cons hc, ih]
  | @bracket k s t name c hc h ih =>
      rw [restoreTags_marker hc, ih fun hpair => hs (hpair.trans (List.infix_cons (List.infix_refl s)))]

def markerChars : List Char := ['%', 'l', 't', 'g']

theorem mem_markerChars {c d : Char} {name : List Char} (hc : (c, name) ∈ brackets)
    (hd : d ∈ '%' :: '%' :: (name ++ ['%', '%'])) : d ∈ markerChars := by
  simp only [brackets, List.mem_cons, Prod.mk.injEq, List.not_mem_nil, or_false] at hc
  rcases hc with ⟨-, rfl⟩ | ⟨-, rfl⟩ <;>
  · revert d
    decide

/-- Where a form of a text is cut, but not inside of a marker, the text can be cut as well. -/
theorem Hides.split {u r : List Char} (h : Hides k s (u ++ r))
    (hcut : (∃ c ∈ u.getLast?, c ∉ markerChars) ∨ ∀ c ∈ r.head?, c ∉ markerChars) :
    ∃ i j s₁ s₂, i + j = k ∧ s = s₁ ++ s₂ ∧ Hides i s₁ u ∧ Hides j s₂ r := by
  generalize ht : u ++ r = t at h
  induction h generalizing u with
  | nil =>
      obtain ⟨rfl, rfl⟩ := List.append_eq_nil_iff.mp ht
      exact ⟨0, 0, [], [], rfl, rfl, .nil, .nil⟩
  | @keep k s t c h ih =>
      cases u with
      | nil => exact ⟨0, k, [], c :: s, Nat.zero_add k, rfl, .nil, (show r = c :: t from ht) ▸ h.keep c⟩
      | cons d u =>
          obtain ⟨rfl, hu⟩ := List.cons.inj ht
          cases u with
          | nil => exact ⟨0, k, [d], s, Nat.zero_add k, rfl, .keep d .nil, (show r = t from hu) ▸ h⟩
          | cons e u =>
              obtain ⟨i, j, s₁, s₂, hk, rfl, h₁, h₂⟩ := ih (u := e :: u) hcut hu
              exact ⟨i, j, d :: s₁, s₂, hk, rfl, .keep d h₁, h₂⟩
  | @bracket k s t name c hc h ih =>
      have hmarker : u ++ r = '%' :: '%' :: (name ++ ['%', '%']) ++ t := by simpa using ht
      have hwhole : Hides 1 [c] ('%' :: '%' :: (name ++ ['%', '%'])) := .bracket hc .nil
      rcases List.append_eq_append_iff.mp hmarker with ⟨v, hv, rfl⟩ | ⟨v, rfl, rfl⟩
      · rcases List.eq_nil_or_concat u with rfl | ⟨u, d, rfl⟩
        · rw [List.nil_append] at ht
          exact ⟨0, k + 1, [], c :: s, Nat.zero_add _, rfl, .nil, ht ▸ h.bracket hc⟩
        rw [List.concat_eq_append] at hv hcut ⊢
        cases v with
        | nil =>
            rw [List.append_nil] at hv
            exact ⟨1, k, [c], s, Nat.add_comm 1 k, rfl, hv ▸ hwhole, h⟩
        | cons e v =>
            -- both neighbours of the cut belong to the marker
            have hd : d ∈ markerChars := mem_markerChars hc (by rw [hv]; simp)
            have he : e ∈ markerChars := mem_markerChars hc (by rw [hv]; simp)
            rcases hcut with ⟨d', hd', hnot⟩ | hnot
            · rw [List.getLast?_concat] at hd'
              cases hd'
              exact (hnot hd).elim
            · exact (hnot e rfl he).elim
      · cases v with
        | nil =>
            rw [List.append_nil]
            exact ⟨1, k, [c], s, Nat.add_comm 1 k, rfl, hwhole, h⟩
        | cons e v =>
            obtain ⟨i, j, s₁, s₂, rfl, rfl, h₁, h₂⟩ := ih (by rwa [List.getLast?_append_cons] at hcut) rfl
            exact ⟨1 + i, j, c :: s₁, s₂, by omega, rfl, hwhole.append h₁, h₂⟩

theorem Hides.utf8Len_eq (h : Hides k s t) : String.utf8Len t = String.utf8Len s + 5 * k := by
  induction h with
  | nil => rfl
  | keep c _ ih => rw [String.utf8Len_cons, String.utf8Len_cons, ih, Nat.add_right_comm]
  | @bracket k s t name c hc _ ih =>
      have hsize : String.utf8Len ('%' :: '%' :: (name ++ ['%', '%'])) = c.utf8Size + 5 := by
        simp only [brackets, List.mem_cons, Prod.mk.injEq, List.not_mem_nil, or_false] at hc
        rcases hc with ⟨rfl, rfl⟩ | ⟨rfl, rfl⟩ <;> decide
      have happend : String.utf8Len ('%' :: '%' :: (name ++ ['%', '%']) ++ t) =
          c.utf8Size + 5 + String.utf8Len t := by
        rw [String.utf8Len_append, hsize]
      rw [String.utf8Len_cons c s]
      simp only [List.cons_append, List.append_assoc, List.nil_append] at happend
      omega

theorem Hides.count_eq (h : Hides k s t) : t.count '\n' = s.count '\n' := by
  induction h with
  | nil => rfl
  | keep c _ ih => rw [List.count_cons, List.count_cons, ih]
  | @bracket k s t name c hc _ ih =>
      simp only [brackets, List.mem_cons, Prod.mk.injEq, List.not_mem_nil, or_false] at hc
      rcases hc with ⟨rfl, rfl⟩ | ⟨rfl, rfl⟩ <;> simp [ih]

theorem Hides.eq_of_zero (h : Hides 0 s t) : t = s := by
  generalize hk : 0 = k at h
  induction h with
  | nil => rfl
  | keep c _ ih => rw [ih hk]
  | bracket => cases hk

end

end Text

namespace Transformer

/-- Hiding the tags of a text is undone by restoring them, if no two percent signs stand together in it. -/
theorem htmlTags_decode_encode {pattern : String} (h : ¬ ['%', '%'] <:+: pattern.toList) :
    htmlTags.decode (htmlTags.encode pattern) = pattern := by
  obtain ⟨k, hides⟩ := Text.exists_hides_hideTags pattern.toList
  change String.ofList (Text.restoreTags (String.ofList (Text.hideTags pattern.toList)).toList) = pattern
  rw [String.toList_ofList, hides.restoreTags_eq h, String.ofList_toList]

theorem htmlTags_decode_encode_adjacent :
    ¬ ['%', '%'] <:+: "%<b lt%><I>%lt%</i>% <Link: %gt%>%<".toList ∧
      htmlTags.decode (htmlTags.encode "%<b lt%><I>%lt%</i>% <Link: %gt%>%<") =
        "%<b lt%><I>%lt%</i>% <Link: %gt%>%<" :=
  have h : ¬ ['%', '%'] <:+: "%<b lt%><I>%lt%</i>% <Link: %gt%>%<".toList := by decide +kernel
  ⟨h, htmlTags_decode_encode h⟩

end Transformer

end Phrasebook
