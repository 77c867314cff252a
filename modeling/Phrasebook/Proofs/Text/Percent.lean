import Phrasebook.Proofs.Text.NoMarkup

namespace Phrasebook.Text

/-- Whether a character other than an accent stands before every percent sign and after the one before
it, where one may stand in front already. -/
def apartFrom : Bool → List Char → Bool
  | _, [] => true
  | free, c :: s => if c = '%' then free && apartFrom false s else apartFrom (free || !isAccentMark c) s

/-- No two percent signs stand together, also if other such texts are put before and behind or the
case of the letters is changed. -/
def PercentsApart (s : List Char) : Prop :=
  apartFrom false s = true

instance (s : List Char) : Decidable (PercentsApart s) :=
  inferInstanceAs (Decidable (_ = true))

section

variable {free : Bool} {c : Char} {s t l : List Char}

theorem apartFrom_percent : apartFrom free ('%' :: s) = true ↔ free = true ∧ apartFrom false s = true := by
  simp [apartFrom]

theorem apartFrom_cons (hc : c ≠ '%') : apartFrom free (c :: s) = apartFrom (free || !isAccentMark c) s := by
  simp [apartFrom, hc]

theorem apartFrom_mono {free' : Bool} (h : apartFrom free s = true) (hfree : free = true → free' = true) :
    apartFrom free' s = true := by
  induction s generalizing free free' with
  | nil => rfl
  | cons c s ih =>
      by_cases hc : c = '%'
      · subst hc
        rw [apartFrom_percent] at h ⊢
        exact ⟨hfree h.1, h.2⟩
      · rw [apartFrom_cons hc] at h ⊢
        refine ih h ?_
        simp only [Bool.or_eq_true]
        exact Or.imp_left hfree

theorem apartFrom_append (hs : apartFrom free s = true) (ht : PercentsApart t) : apartFrom free (s ++ t) = true := by
  induction s generalizing free with
  | nil => exact apartFrom_mono ht nofun
  | cons c s ih =>
      rw [List.cons_append]
      by_cases hc : c = '%'
      · subst hc
        rw [apartFrom_percent] at hs ⊢
        exact ⟨hs.1, ih hs.2⟩
      · rw [apartFrom_cons hc] at hs ⊢
        exact ih hs

theorem PercentsApart.append (hs : PercentsApart s) (ht : PercentsApart t) : PercentsApart (s ++ t) :=
  apartFrom_append hs ht

theorem apartFrom_append_of_not_mem {before after : Bool} (hl : '%' ∉ l) (ht : apartFrom after t = true)
    (hfree : after = true → before = true ∨ ∃ d ∈ l, isAccentMark d = false) :
    apartFrom before (l ++ t) = true := by
  induction l generalizing before with
  | nil => exact apartFrom_mono ht fun h => by simpa using hfree h
  | cons c l ih =>
      rw [List.mem_cons, not_or] at hl
      rw [List.cons_append, apartFrom_cons (Ne.symm hl.1)]
      refine ih hl.2 fun h => ?_
      rcases hfree h with h | ⟨d, hd, hstands⟩
      · exact .inl (by rw [h, Bool.true_or])
      · rcases List.mem_cons.mp hd with rfl | hd
        · exact .inl (by rw [hstands, Bool.not_false, Bool.or_true])
        · exact .inr ⟨d, hd, hstands⟩

theorem percentsApart_of_not_mem (h : '%' ∉ s) : PercentsApart s := by
  have hnil : apartFrom false [] = true := rfl
  rw [← List.append_nil s]
  exact apartFrom_append_of_not_mem h hnil nofun

theorem percentsApart_concat (hs : '%' ∉ s) (hstands : ∃ d ∈ s, isAccentMark d = false) :
    PercentsApart (s ++ ['%']) := by
  have hsign : apartFrom true ['%'] = true := rfl
  exact apartFrom_append_of_not_mem hs hsign fun _ => .inr hstands

end

structure Respelled (c : Char) (l : List Char) : Prop where
  percent : c = '%' → l = ['%']
  other : c ≠ '%' → '%' ∉ l
  stands : isAccentMark c = false → ∃ d ∈ l, isAccentMark d = false

theorem Respelled.apartFrom {c : Char} {l s t : List Char} {free : Bool} (h : Respelled c l)
    (ht : ∀ free, apartFrom free s = true → apartFrom free t = true) (hs : apartFrom free (c :: s) = true) :
    apartFrom free (l ++ t) = true := by
  by_cases hc : c = '%'
  · rw [h.percent hc]
    subst hc
    rw [apartFrom_percent] at hs
    exact apartFrom_percent.mpr ⟨hs.1, ht _ hs.2⟩
  · rw [apartFrom_cons hc] at hs
    refine apartFrom_append_of_not_mem (h.other hc) (ht _ hs) ?_
    rw [Bool.or_eq_true, Bool.not_eq_true']
    exact Or.imp_right h.stands

theorem Recased.respelled {c : Char} {l : List Char} (h : Recased c l) : Respelled c l where
  percent hc := by
    subst hc
    exact h.same (by decide)
  other hc hl := by
    by_cases hletter : 64 ≤ c.toNat
    · exact absurd (h.letters hletter _ hl) (by decide)
    · rw [h.same (by omega), List.mem_singleton] at hl
      exact hc hl.symm
  stands := h.stands

theorem respelled_escapeHtmlChar (c : Char) : Respelled c (escapeHtmlChar c) := by
  unfold escapeHtmlChar
  split
  · exact ⟨by decide, by decide, by decide⟩
  · exact ⟨by decide, by decide, by decide⟩
  · exact ⟨by decide, by decide, by decide⟩
  · exact ⟨by decide, by decide, by decide⟩
  · exact ⟨by decide, by decide, by decide⟩
  · refine ⟨fun hc => by rw [hc], fun hc h => hc (List.mem_singleton.mp h).symm, fun h => ?_⟩
    exact ⟨c, List.mem_singleton_self c, h⟩

theorem Recasing.percentsApart {s t : List Char} (h : Recasing s t) (hs : PercentsApart s) : PercentsApart t := by
  -- behind the first character the scan may have something in front
  suffices happly : ∀ free, apartFrom free s = true → apartFrom free t = true from happly false hs
  clear hs
  induction h with
  | nil => exact fun _ _ => rfl
  | cons hc _ ih => exact fun free => hc.respelled.apartFrom ih

theorem percentsApart_escapeHtml {s : List Char} (hs : PercentsApart s) : PercentsApart (escapeHtml s) := by
  suffices happly : ∀ free, apartFrom free s = true → apartFrom free (escapeHtml s) = true from happly false hs
  clear hs
  induction s with
  | nil => exact fun _ _ => rfl
  | cons c s ih => exact fun free => (respelled_escapeHtmlChar c).apartFrom ih

/-- There is no marker to be taken for the bracket of a tag. -/
theorem restoreTags_of_percentsApart {s : List Char} (h : PercentsApart s) : restoreTags s = s := by
  suffices happly : ∀ free, apartFrom free s = true → restoreTags s = s from happly false h
  clear h
  fun_induction restoreTags s with
  | case1 => exact fun _ _ => rfl
  -- either marker begins with two percent signs, and nothing stands before the second
  | case2 s _ _ _ _ _ =>
      intro free h
      rw [apartFrom_percent, apartFrom_percent] at h
      cases h.2.1
  | case3 s _ _ =>
      intro free h
      rw [apartFrom_percent, apartFrom_percent] at h
      cases h.2.1
  | case4 c s hmarker ih =>
      intro free h
      by_cases hc : c = '%'
      · subst hc
        rw [ih _ (apartFrom_percent.mp h).2]
      · rw [ih _ ((apartFrom_cons hc).symm.trans h)]

theorem hideTags_of_not_mem {s : List Char} (h : '<' ∉ s) : hideTags s = s := by
  fun_induction hideTags s with
  | case1 => rfl
  | case5 c s _ ih => rw [ih fun hs => h (List.mem_cons_of_mem c hs)]
  | _ => exact (h List.mem_cons_self).elim

end Phrasebook.Text
