import Phrasebook.Proofs.Condition.Letters
import Phrasebook.Proofs.Condition.Rules
import Phrasebook.Proofs.Text.Words

namespace Phrasebook

open Text

def appendRest {α : Type} (w : List Char) (read : α × List Char) : α × List Char :=
  (read.1, read.2 ++ w)

/-- A reader that leaves blanks at the end of a text where they are. -/
structure LeavesBlanks {α : Type} (read : List Char → Option (α × List Char)) : Prop where
  nil : read [] = none
  append : ∀ s w, (∀ c ∈ w, isBlank c = true) → read (s ++ w) = (read s).map (appendRest w)

theorem not_isDigit_of_isBlank {c : Char} (h : isBlank c = true) : ¬ isDigit c = true := by
  have hdigits : ∀ d ∈ digits, isBlank d = false := by decide
  intro hc
  have hblank := hdigits c (mem_digits hc)
  rw [h] at hblank
  cases hblank

section

variable {α : Type} {read : List Char → Option (α × List Char)} {w : List Char}

theorem leavesBlanks_of_cons (hnil : read [] = none) (hblank : ∀ b s, isBlank b = true → read (b :: s) = none)
    (hcons : ∀ c s w, (∀ d ∈ w, isBlank d = true) → read (c :: (s ++ w)) = (read (c :: s)).map (appendRest w)) :
    LeavesBlanks read where
  nil := hnil
  append s w hw := by
    cases s with
    | cons c s => exact hcons c s w hw
    | nil =>
        cases w with
        | nil => simp [hnil]
        | cons b w => simp [hnil, hblank b w (hw b List.mem_cons_self)]

theorem LeavesBlanks.trimStart_append (h : LeavesBlanks read) (hw : ∀ c ∈ w, isBlank c = true) (s : List Char) :
    read (trimStart (s ++ w)) = (read (trimStart s)).map (appendRest w) := by
  by_cases hs : trimStart s = []
  · rw [hs, (trimStart_append_eq_nil_iff hw s).mpr hs, h.nil]
    rfl
  · rw [Text.trimStart_append hs, h.append _ _ hw]

end

namespace Arithmetic

variable {w : List Char}

theorem span_append (hw : ∀ c ∈ w, isBlank c = true) (s : List Char) :
    (s ++ w).span isDigit = ((s.span isDigit).1, (s.span isDigit).2 ++ w) := by
  simp only [List.span_eq_takeWhile_dropWhile]
  induction s with
  | nil =>
      cases w with
      | nil => rfl
      | cons c w =>
          have hc := not_isDigit_of_isBlank (hw c List.mem_cons_self)
          rw [List.nil_append, List.takeWhile_cons_of_neg hc, List.dropWhile_cons_of_neg hc]
          rfl
  | cons c s ih =>
      rw [Prod.mk.injEq] at ih
      by_cases hc : isDigit c = true
      · rw [List.cons_append, List.takeWhile_cons_of_pos hc, List.takeWhile_cons_of_pos hc,
          List.dropWhile_cons_of_pos hc, List.dropWhile_cons_of_pos hc, ih.1, ih.2]
      · rw [List.cons_append, List.takeWhile_cons_of_neg hc, List.takeWhile_cons_of_neg hc,
          List.dropWhile_cons_of_neg hc, List.dropWhile_cons_of_neg hc, List.cons_append]

theorem head?_append_any (hw : ∀ c ∈ w, isBlank c = true) (s : List Char) :
    (s ++ w).head?.any isDigit = s.head?.any isDigit := by
  cases s with
  | cons => rfl
  | nil =>
      cases w with
      | nil => rfl
      | cons c w => simpa using not_isDigit_of_isBlank (hw c List.mem_cons_self)

theorem unsigned?_of_isBlank {b : Char} (hb : isBlank b = true) (s : List Char) : unsigned? (b :: s) = none := by
  have hspan : (b :: s).span isDigit = ([], b :: s) := by
    rw [List.span_eq_takeWhile_dropWhile, List.takeWhile_cons_of_neg (not_isDigit_of_isBlank hb),
      List.dropWhile_cons_of_neg (not_isDigit_of_isBlank hb)]
  rw [unsigned?, hspan]

theorem leavesBlanks_unsigned? : LeavesBlanks unsigned? := by
  refine leavesBlanks_of_cons rfl (fun b s hb => unsigned?_of_isBlank hb s) fun c s w hw => ?_
  unfold unsigned?
  rw [← List.cons_append, span_append hw]
  generalize (c :: s).span isDigit = found
  obtain ⟨_ | ⟨d, whole⟩, rest⟩ := found
  · rfl
  · cases rest with
    | nil =>
        cases w with
        | nil => rfl
        | cons b w =>
            have hb : b ≠ '.' := by
              rintro rfl
              cases hw '.' List.mem_cons_self
            simp [appendRest, hb]
    | cons e rest =>
        by_cases he : e = '.'
        · subst he
          simp only [List.cons_append, head?_append_any hw, span_append hw]
          split <;> rfl
        · simp [appendRest, he]

theorem leavesBlanks_signed? : LeavesBlanks signed? := by
  have hplain {c : Char} (hc : c ≠ '-') (s : List Char) : signed? (c :: s) = unsigned? (c :: s) := by
    rw [signed?]
    rintro _ ⟨⟩
    exact hc rfl
  refine leavesBlanks_of_cons rfl (fun b s hb => ?_) fun c s w hw => ?_
  · have hminus : b ≠ '-' := by
      rintro rfl
      cases hb
    rw [hplain hminus, unsigned?_of_isBlank hb]
  · by_cases hc : c = '-'
    · subst hc
      rw [signed?, signed?, leavesBlanks_unsigned?.append s w hw, Option.map_map, Option.map_map]
      rfl
    · rw [hplain hc, hplain hc, ← List.cons_append, leavesBlanks_unsigned?.append (c :: s) w hw]

theorem leavesBlanks_step? : LeavesBlanks step? := by
  refine leavesBlanks_of_cons rfl (fun b s hb => ?_) fun c s w hw => ?_
  · have hsymbol : Operation.ofSymbol? b = none := by
      unfold Operation.ofSymbol?
      split <;> first | rfl | cases hb
    rw [step?, hsymbol]
    rfl
  · rw [step?, step?, leavesBlanks_unsigned?.trimStart_append hw]
    cases Operation.ofSymbol? c with
    | none => rfl
    | some op => cases unsigned? (trimStart s) <;> rfl

theorem leavesBlanks_read? : LeavesBlanks Comparison.read? where
  nil := rfl
  append s w hw := by
    fun_cases Comparison.read? s with
    | case1 | case2 | case3 | case4 | case5 => rfl
    | case6 s hgreater hequal =>
        rw [List.cons_append, Comparison.read?]
        · rfl
        · exact append_ne_of_blank ['>'] hw (by decide) hgreater
        · exact append_ne_of_blank ['='] hw (by decide) hequal
    | case7 s hequal =>
        rw [List.cons_append, Comparison.read?]
        · rfl
        · exact append_ne_of_blank ['='] hw (by decide) hequal
    | case8 s hnot _ _ _ hequal hless hgreater =>
        rw [Comparison.read?]
        · rfl
        · exact append_ne_of_blank ['!', '='] hw (by decide) hnot
        · exact fun t => append_ne_of_blank ['<'] hw (by decide) hless ('>' :: t)
        · exact fun t => append_ne_of_blank ['<'] hw (by decide) hless ('=' :: t)
        · exact fun t => append_ne_of_blank ['>'] hw (by decide) hgreater ('=' :: t)
        · exact append_ne_of_blank ['='] hw (by decide) hequal
        · exact append_ne_of_blank ['<'] hw (by decide) hless
        · exact append_ne_of_blank ['>'] hw (by decide) hgreater

theorem steps_append (hw : ∀ c ∈ w, isBlank c = true) (n : Nat) (s : List Char) :
    steps n (s ++ w) = appendRest w (steps n s) := by
  induction n generalizing s with
  | zero => rfl
  | succ n ih =>
      rw [steps, steps, leavesBlanks_step?.trimStart_append hw]
      cases step? (trimStart s) with
      | none => rfl
      | some found =>
          dsimp only [Option.map_some, appendRest]
          rw [ih]
          rfl

theorem parse?_append (hw : ∀ c ∈ w, isBlank c = true) (s : List Char) : parse? (s ++ w) = parse? s := by
  have hsteps : steps (s ++ w).length (s ++ w) = appendRest w (steps s.length s) := by
    rw [steps_append hw, steps_of_length_le (by simp) (Nat.le_refl _)]
  rw [parse?, parse?, hsteps]
  obtain ⟨_ | ⟨step, operations⟩, rest⟩ := steps s.length s
  · rfl
  · dsimp only [appendRest]
    rw [leavesBlanks_read?.trimStart_append hw]
    cases Comparison.read? (trimStart rest) with
    | none => rfl
    | some found =>
        dsimp only [Option.map_some, Option.bind_some, appendRest]
        rw [leavesBlanks_signed?.trimStart_append hw]
        cases signed? (trimStart found.2) with
        | none => rfl
        | some target =>
            dsimp only [Option.map_some, Option.bind_some, appendRest]
            simp only [trimStart_append_eq_nil_iff hw]

theorem parse?_trim (s : List Char) : parse? (trim s) = parse? s := by
  have hblank : ∀ c ∈ (trimStart s).rtakeWhile isBlank, isBlank c = true := fun c => List.mem_rtakeWhile_imp
  rw [← parse?_append hblank, trim, trimEnd_eq_rdropWhile, List.rdropWhile_append_rtakeWhile, parse?_trimStart]

end Arithmetic

theorem Range.parse?_trim (s : List Char) : parse? (trim s) = parse? s := by
  unfold parse? bounds? bracketed? half?
  rw [trim_idem]

theorem ValueList.parse?_trim (s : List Char) : parse? (trim s) = parse? s := by
  unfold parse?
  rw [trim_idem]

end Phrasebook
