import Phrasebook.Text.Pieces

namespace Phrasebook.Text

theorem splitOn_eq (separator : Char) (s : List Char) : splitOn separator s = s.splitOn separator := by
  induction s with
  | nil => rfl
  | cons c s ih =>
      rw [splitOn, List.splitOn_cons_eq_if_modifyHead, ih]
      split
      · rfl
      · obtain ⟨piece, pieces, hpieces⟩ := List.exists_cons_of_ne_nil (List.splitOn_ne_nil separator s)
        rw [hpieces]
        rfl

theorem splitOn_ne_nil (separator : Char) (s : List Char) : splitOn separator s ≠ [] := by
  rw [splitOn_eq]
  exact List.splitOn_ne_nil separator s

theorem flatten_splitOn (separator : Char) (s : List Char) :
    ((splitOn separator s).intersperse [separator]).flatten = s := by
  induction s with
  | nil => rfl
  | cons c s ih =>
      rw [splitOn]
      cases hs : splitOn separator s with
      | nil => exact (splitOn_ne_nil separator s hs).elim
      | cons piece pieces =>
          rw [hs] at ih
          split
          next hc =>
            rw [beq_iff_eq] at hc
            subst hc
            exact congrArg (c :: ·) ih
          next =>
            cases pieces with
            | nil => exact congrArg (c :: ·) ih
            | cons next pieces => exact congrArg (c :: ·) ih

theorem mem_of_mem_splitOn {separator : Char} {s piece : List Char} (h : piece ∈ splitOn separator s) :
    ∀ c ∈ piece, c ∈ s := by
  induction s generalizing piece with
  | nil =>
      cases List.mem_singleton.mp h
      rintro c ⟨⟩
  | cons d s ih =>
      rw [splitOn] at h
      split at h
      · rcases List.mem_cons.mp h with rfl | h
        · rintro c ⟨⟩
        · exact fun c hc => List.mem_cons_of_mem d (ih h c hc)
      · split at h
        · cases List.mem_singleton.mp h
          intro c hc
          exact List.mem_cons.mpr (.inl (List.mem_singleton.mp hc))
        next first pieces heq =>
          rw [heq] at ih
          rcases List.mem_cons.mp h with rfl | h
          · intro c hc
            rcases List.mem_cons.mp hc with rfl | hc
            · exact List.mem_cons_self
            · exact List.mem_cons_of_mem d (ih List.mem_cons_self c hc)
          · exact fun c hc => List.mem_cons_of_mem d (ih (List.mem_cons_of_mem first h) c hc)

theorem forall_mem_splitOn_iff {separator : Char} {p : Char → Prop} {s : List Char} :
    (∀ piece ∈ splitOn separator s, ∀ c ∈ piece, p c) ↔ ∀ c ∈ s, c = separator ∨ p c := by
  induction s with
  | nil => simp [splitOn]
  | cons c s ih =>
      rw [splitOn, List.forall_mem_cons, ← ih]
      split
      next hc => simp [beq_iff_eq.mp hc]
      next hc =>
        rw [beq_iff_eq] at hc
        cases hpieces : splitOn separator s with
        | nil => exact (splitOn_ne_nil separator s hpieces).elim
        | cons piece pieces => simp [hc, and_assoc]

theorem splitOn_of_not_mem {separator : Char} {s : List Char} (h : separator ∉ s) : splitOn separator s = [s] := by
  rw [splitOn_eq, List.splitOn_eq_singleton h]

theorem splitOn_append {separator : Char} {s : List Char} (h : separator ∉ s) (rest : List Char) :
    splitOn separator (s ++ separator :: rest) = s :: splitOn separator rest := by
  rw [splitOn_eq, splitOn_eq, List.splitOn_append_cons_self_of_not_mem h]

theorem length_splitOn (separator : Char) (s : List Char) :
    (splitOn separator s).length = s.count separator + 1 := by
  induction s with
  | nil => rfl
  | cons c s ih =>
      rw [splitOn, List.count_cons]
      split
      · rw [List.length_cons, ih]
      next =>
        cases hpieces : splitOn separator s with
        | nil => exact (splitOn_ne_nil separator s hpieces).elim
        | cons piece pieces =>
            rw [hpieces] at ih
            exact ih

theorem count_intercalate {separator : Char} {pieces : List (List Char)} (hne : pieces ≠ []) :
    ([separator].intercalate pieces).count separator + 1 = pieces.length + pieces.flatten.count separator := by
  induction pieces with
  | nil => exact absurd rfl hne
  | cons piece rest ih =>
      cases rest with
      | nil => simp; omega
      | cons next rest =>
          have hrest := ih (List.cons_ne_nil _ _)
          rw [List.intercalate_cons_cons, List.count_append, List.count_append, List.count_singleton_self,
            List.flatten_cons, List.count_append, List.length_cons]
          omega

theorem toList_joined (separator : String) (texts : List String) :
    (joined separator texts).toList = separator.toList.intercalate (texts.map String.toList) := by
  fun_induction joined separator texts with
  | case1 => rfl
  | case2 s => simp
  | case3 s rest hrest ih =>
      obtain ⟨next, more, rfl⟩ := List.exists_cons_of_ne_nil hrest
      simp only [String.toList_append, ih, List.map_cons, List.intercalate_cons_cons]

theorem after?_eq_some_iff {mark s rest : List Char} : after? mark s = some rest ↔ s = mark ++ rest := by
  induction mark generalizing s with
  | nil => simp [after?]
  | cons m mark ih =>
      cases s with
      | nil => simp [after?]
      | cons c s =>
          by_cases hm : m = c
          · subst hm
            simp [after?, ih]
          · have : c ≠ m := fun h => hm h.symm
            simp [after?, hm, this]

theorem eq_append_of_splitOnce {mark s head tail : List Char} (h : splitOnce mark s = some (head, tail)) :
    s = head ++ mark ++ tail := by
  induction s generalizing head with
  | nil =>
      obtain ⟨rest, hrest, ⟨⟩⟩ := Option.map_eq_some_iff.mp h
      simpa using after?_eq_some_iff.mp hrest
  | cons c s ih =>
      rw [splitOnce] at h
      split at h
      next rest hrest =>
        cases h
        simpa using after?_eq_some_iff.mp hrest
      next =>
        obtain ⟨⟨head', tail'⟩, hsplit, ⟨⟩⟩ := Option.map_eq_some_iff.mp h
        simp [ih hsplit]

/-- A mark that comes up no sooner than it was put there splits the text where it was put together. -/
theorem splitOnce_append {mark head : List Char} (hmark : mark ≠ [])
    (h : splitOnce mark (head ++ mark.dropLast) = none) (tail : List Char) :
    splitOnce mark (head ++ mark ++ tail) = some (head, tail) := by
  induction head with
  | nil =>
      obtain ⟨m, mark, rfl⟩ := List.exists_cons_of_ne_nil hmark
      rw [List.nil_append, List.cons_append, splitOnce]
      have hafter : after? (m :: mark) (m :: (mark ++ tail)) = some tail := after?_eq_some_iff.mpr rfl
      rw [hafter]
  | cons c head ih =>
      rw [List.cons_append, splitOnce] at h
      split at h
      next => cases h
      next hafter =>
        rw [Option.map_eq_none_iff] at h
        cases hlater : after? mark (c :: head ++ mark ++ tail) with
        | none =>
            have hrest := ih h
            rw [List.append_assoc] at hrest
            simp only [List.cons_append, List.append_assoc] at hlater ⊢
            simp [splitOnce, hlater, hrest]
        | some rest =>
            have hprefix : mark <+: c :: head ++ mark ++ tail := ⟨rest, (after?_eq_some_iff.mp hlater).symm⟩
            have hshorter : c :: (head ++ mark.dropLast) <+: c :: head ++ mark ++ tail := by
              rw [← List.cons_append, List.append_assoc, List.prefix_append_right_inj]
              exact (List.dropLast_prefix mark).trans (List.prefix_append mark tail)
            obtain ⟨rest', hrest⟩ := List.prefix_of_prefix_length_le hprefix hshorter (by simp; omega)
            rw [after?_eq_some_iff.mpr hrest.symm] at hafter
            cases hafter

theorem isInfix_of_splitOnce {mark s : List Char} (h : (splitOnce mark s).isSome) : mark <:+: s := by
  obtain ⟨⟨head, tail⟩, hsplit⟩ := Option.isSome_iff_exists.mp h
  exact ⟨head, tail, (eq_append_of_splitOnce hsplit).symm⟩

end Phrasebook.Text
