import Phrasebook.Pattern.Printer

namespace Phrasebook.Reader

/-- A text that spells another with escapes: no mark stands in it without a backslash. -/
inductive Spells (marks : List Char) : List Char → List Char → Prop
  | nil : Spells marks [] []
  | plain {c : Char} {s t : List Char} (hc : c ∉ marks) (hb : c ≠ '\\') (h : Spells marks s t) :
      Spells marks (c :: s) (c :: t)
  | escaped {c : Char} {s t : List Char} (h : Spells marks s t) :
      Spells marks ('\\' :: c :: s) (c :: t)

section

variable {marks s t : List Char}

theorem Spells.append {s' t' : List Char} (h : Spells marks s t) (h' : Spells marks s' t') :
    Spells marks (s ++ s') (t ++ t') := by
  induction h with
  | nil => exact h'
  | plain hc hb _ ih => exact .plain hc hb ih
  | escaped _ ih => exact .escaped ih

theorem Spells.eq_nil_iff (h : Spells marks s t) : t = [] ↔ s = [] := by
  cases h <;> simp

theorem readText_cons {c : Char} (hc : c ∉ stops) (hb : c ≠ '\\') (r : List Char) :
    readText stops (c :: r) = (c :: (readText stops r).1, (readText stops r).2) := by
  simp [readText, hc, hb]

theorem readText_escape (c : Char) (r : List Char) :
    readText stops ('\\' :: c :: r) = (c :: (readText stops r).1, (readText stops r).2) := by
  simp [readText]

theorem readText_stop {c : Char} (hc : c ∈ stops) (hb : c ≠ '\\') (r : List Char) :
    readText stops (c :: r) = ([], c :: r) := by
  simp [readText, hc, hb]

theorem firstOf_cons {c : Char} (hc : c ∉ marks) (hb : c ≠ '\\') (r : List Char) :
    firstOf marks (c :: r) = firstOf marks r := by
  simp [firstOf, hc, hb]

theorem firstOf_escape (c : Char) (r : List Char) :
    firstOf marks ('\\' :: c :: r) = firstOf marks r := by
  simp [firstOf]

theorem firstOf_mark {c : Char} (hc : c ∈ marks) (hb : c ≠ '\\') (r : List Char) :
    firstOf marks (c :: r) = some c := by
  simp [firstOf, hc, hb]

theorem Spells.readText_append (h : Spells stops s t) (r : List Char) :
    readText stops (s ++ r) = (t ++ (readText stops r).1, (readText stops r).2) := by
  induction h with
  | nil => rfl
  | plain hc hb _ ih => rw [List.cons_append, readText_cons hc hb, ih, List.cons_append]
  | escaped _ ih => rw [List.cons_append, List.cons_append, readText_escape, ih, List.cons_append]

theorem Spells.readText_stop (h : Spells stops s t) {c : Char} (hc : c ∈ stops) (hb : c ≠ '\\')
    (r : List Char) : readText stops (s ++ c :: r) = (t, c :: r) := by
  rw [h.readText_append, Reader.readText_stop hc hb, List.append_nil]

theorem Spells.firstOf_append (h : Spells marks s t) (r : List Char) :
    firstOf marks (s ++ r) = firstOf marks r := by
  induction h with
  | nil => rfl
  | plain hc hb _ ih => rw [List.cons_append, firstOf_cons hc hb, ih]
  | escaped _ ih => rw [List.cons_append, List.cons_append, firstOf_escape, ih]

theorem Spells.readText_eq (h : Spells stops s t) (hb : '\\' ∉ stops) {r : List Char}
    (hr : ∀ c ∈ r.head?, c ∈ stops) : readText stops (s ++ r) = (t, r) := by
  cases r with
  | nil => rw [h.readText_append, readText, List.append_nil]
  | cons c r => exact h.readText_stop (hr c rfl) (fun hc => hb (hc ▸ hr c rfl)) r

theorem spells_escaped (hs : ∀ c ∈ stops, c ∈ marks) (hb : '\\' ∈ marks) (s : String) :
    Spells stops (Printer.escaped marks s) s.toList := by
  unfold Printer.escaped
  induction s.toList with
  | nil => exact .nil
  | cons c t ih =>
      rw [List.flatMap_cons]
      by_cases hc : c ∈ marks
      · rw [if_pos hc]
        exact .escaped ih
      · rw [if_neg hc]
        exact .plain (fun h => hc (hs c h)) (fun h => hc (h ▸ hb)) ih

theorem ne_backslash {c : Char} (hlast : c = '\\' → s = [] → False)
    (hescape : ∀ d r, c = '\\' → s = d :: r → False) : c ≠ '\\' := by
  rintro rfl
  cases s with
  | nil => exact hlast rfl rfl
  | cons d r => exact hescape d r rfl rfl

/-- Reading on does not change which mark comes first, unless the text read holds that mark. -/
theorem firstOf_readText (marks stops s : List Char) :
    firstOf marks s = firstOf marks (readText stops s).2 ∨
      ∃ c ∈ (readText stops s).1, c ∈ marks ∧ c ∉ stops ∧ firstOf marks s = some c := by
  fun_induction readText stops s with
  | case1 => exact .inl rfl
  | case2 => exact .inl rfl
  | case3 c rest text r hr ih =>
      rw [firstOf_escape]
      rw [hr] at ih
      rcases ih with h | ⟨d, hd, h⟩
      · exact .inl h
      · exact .inr ⟨d, List.mem_cons_of_mem c hd, h⟩
  | case4 c rest hc => exact .inl rfl
  | case5 c rest hb₁ hb₂ hc text r hr ih =>
      have hb : c ≠ '\\' := ne_backslash hb₁ hb₂
      by_cases hm : c ∈ marks
      · exact .inr ⟨c, List.mem_cons_self, hm, hc, firstOf_mark hm hb rest⟩
      · rw [firstOf_cons hm hb]
        rw [hr] at ih
        rcases ih with h | ⟨d, hd, h⟩
        · exact .inl h
        · exact .inr ⟨d, List.mem_cons_of_mem c hd, h⟩

end

end Phrasebook.Reader
