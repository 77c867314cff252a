import Phrasebook.Proofs.Condition.Padding
import Phrasebook.Proofs.Condition.Ranges
import Phrasebook.Proofs.Dialect.Spellings
import Phrasebook.Proofs.Text.Pieces

namespace Phrasebook

open Text

theorem Arithmetic.parse?_cons {c : Char} (hc : isBlank c = false) (hsymbol : Operation.ofSymbol? c = none)
    (s : List Char) : parse? (c :: s) = none := by
  have htrim : trimStart (c :: s) = c :: s := trimStart_of_head? fun _ hd => Option.some.inj hd ▸ hc
  have hstep : step? (c :: s) = none := by
    rw [step?, hsymbol]
    rfl
  rw [parse?, List.length_cons, steps, htrim, hstep]

namespace ValueList

/-- A text in which nothing but commas and blanks comes after the sign of a list of values. -/
def IsHollow (s : List Char) : Prop :=
  trim s ≠ [] ∧ ∀ c ∈ (sign (trim s)).2, c = ',' ∨ isBlank c = true

instance (s : List Char) : Decidable (IsHollow s) :=
  inferInstanceAs (Decidable (_ ∧ _))

variable {s : List Char}

theorem labels_eq_nil_iff : labels s = [] ↔ ∀ c ∈ s, c = ',' ∨ isBlank c = true := by
  rw [← forall_mem_splitOn_iff, labels, List.filter_eq_nil_iff, List.forall_mem_map]
  simp only [decide_not, Bool.not_eq_true', decide_eq_false_iff_not, not_not, trim_eq_nil_iff]

theorem parse?_eq_none_iff (hne : trim s ≠ []) : parse? s = none ↔ IsHollow s := by
  rw [IsHollow, and_iff_right hne, ← labels_eq_nil_iff, parse?]
  dsimp only
  split
  next h => simp [h]
  next h =>
    refine iff_of_false ?_ h
    split <;> nofun

theorem IsHollow.exists_cons (h : IsHollow s) : ∃ c t, trim s = c :: t ∧ (c = ',' ∨ c = '=' ∨ c = '!') := by
  obtain ⟨hne, hlist⟩ := h
  obtain ⟨c, t, ht⟩ := List.exists_cons_of_ne_nil hne
  refine ⟨c, t, ht, ?_⟩
  by_contra hc
  simp only [not_or] at hc
  have hsign : sign (c :: t) = (false, c :: t) := by
    rw [sign]
    · rintro u ⟨⟩
      exact hc.2.2 rfl
    · rintro u ⟨⟩
      exact hc.2.1 rfl
  have hblank : isBlank c = false := head?_trim_not_blank s c (by rw [ht]; rfl)
  rw [ht, hsign] at hlist
  rcases hlist c List.mem_cons_self with rfl | hblank'
  · exact hc.1 rfl
  · rw [hblank] at hblank'
    cases hblank'

end ValueList

namespace Dialect

open Connective ValueList

variable {s t : List Char} {site : Site}

theorem simple?_eq_none_of_isHollow (h : IsHollow s) : simple? s = .ok none := by
  obtain ⟨c, t, ht, hc⟩ := h.exists_cons
  have hstored : Condition.stored? (trim s) = none := by
    rw [ht]
    rcases hc with rfl | rfl | rfl <;> rfl
  have harithmetic : Arithmetic.parse? s = none := by
    rw [← Arithmetic.parse?_trim, ht]
    rcases hc with rfl | rfl | rfl <;> exact Arithmetic.parse?_cons rfl rfl t
  have hrange : Range.parse? s = .ok none := by
    have hbounds : Range.bounds? s = none := by
      rw [Option.eq_none_iff_forall_ne_some]
      intro bounds hbounds
      obtain ⟨d, u, hu, hmarks, hcomma, hequal⟩ := (Range.delimits_of_bounds? hbounds).head
      rw [ht] at hu
      cases hu
      rcases hc with rfl | rfl | rfl
      · exact hcomma rfl
      · exact hequal rfl
      · revert hmarks
        decide
    rw [Range.parse?, hbounds]
  have hplural : Condition.plural? (trim s) = none := by
    rw [ht]
    rcases hc with rfl | rfl | rfl
    all_goals simp [Condition.plural?, lowerAscii, PluralCategory.name]
  have hvalues : ValueList.parse? s = none := (parse?_eq_none_iff h.1).mpr h
  refine findSomeM?_eq_none_iff.mpr ?_
  simp [acceptCondition?, hstored, harithmetic, hrange, hplural, hvalues]

/-- A text that is not always true is rejected only if it is hollow. -/
theorem simple?_eq_none_iff (hne : trim s ≠ []) : simple? s = .ok none ↔ IsHollow s := by
  refine ⟨fun h => ?_, simple?_eq_none_of_isHollow⟩
  have hvalues : acceptCondition? .valueList s = .ok none := findSomeM?_eq_none_iff.mp h _ (by simp)
  exact (parse?_eq_none_iff hne).mp (Option.map_eq_none_iff.mp (Except.ok.inj hvalues))

theorem acceptCondition?_eq_error {rule : ConditionRule} {e : BindError} (h : acceptCondition? rule s = .error e) :
    Range.Overflows s ∧ e = .overflow := by
  cases rule with
  | interval =>
      rw [acceptCondition?] at h
      split at h
      next => cases h
      next hrange =>
        cases h
        exact ⟨Range.parse?_eq_error_iff.mp hrange, rfl⟩
  | takeAll | connective | stored | arithmetic | plural | valueList | host => cases h

/-- Bounds out of range stop the program, since what has bounds is neither a stored condition nor arithmetic. -/
theorem simple?_eq_error_iff {e : BindError} : simple? s = .error e ↔ Range.Overflows s ∧ e = .overflow := by
  constructor
  · intro h
    obtain ⟨rule, -, hrule⟩ := exists_error_of_findSomeM? h
    exact acceptCondition?_eq_error hrule
  · rintro ⟨hoverflows, rfl⟩
    have hrange : Range.parse? s = .error ⟨⟩ := Range.parse?_eq_error_iff.mpr hoverflows
    obtain ⟨bounds, hbounds, -⟩ := hoverflows
    obtain ⟨c, t, ht, hmark, hcomma, hequal⟩ := (Range.delimits_of_bounds? hbounds).head
    have hstored : Condition.stored? (trim s) = none := by
      rw [ht, Condition.stored?]
      rintro u ⟨⟩
      revert hmark
      decide
    have harithmetic : Arithmetic.parse? s = none := by
      have hsymbol : ∀ c ∈ Range.marks, isBlank c = false ∧ Operation.ofSymbol? c = none := by decide
      rw [← Arithmetic.parse?_trim, ht]
      exact Arithmetic.parse?_cons (hsymbol c hmark).1 (hsymbol c hmark).2 t
    simp only [simple?, List.findSomeM?_cons, acceptCondition?, hstored, harithmetic, hrange]
    rfl

/-- What a spelling is divided into, until nothing divides it any more. Nothing is left of what is
always true. -/
def leaves (s : List Char) : List (List Char) :=
  if Condition.isAlways (trim s) then []
  else
    match h : split? 0 (stripParentheses s) with
    | none => [s]
    | some (left, _, right) =>
      have := split?_sides_length_lt h
      leaves (stripParentheses left) ++ leaves (stripParentheses right)
termination_by s.length

theorem length_le_of_mem_leaves (h : t ∈ leaves s) : t.length ≤ s.length := by
  fun_induction leaves s with
  | case1 => cases h
  | case2 s => rw [List.mem_singleton.mp h]
  | case3 s _ left _ right hsplit hshorter ihl ihr =>
      rcases List.mem_append.mp h with h | h
      · exact (ihl h).trans hshorter.1.le
      · exact (ihr h).trans hshorter.2.le

theorem trim_ne_nil_of_isAlways (h : ¬ Condition.isAlways (trim s) = true) : trim s ≠ [] := fun hnil => by
  rw [hnil] at h
  exact h rfl

inductive Refuses (site : Site) (s : List Char) : BindError → Prop
  | hollow (h : IsHollow s) : Refuses site s (.unresolved .condition site (String.ofList s))
  | overflow (h : Range.Overflows s) : Refuses site s .overflow

theorem standard_condition_of_undivided (halways : ¬ Condition.isAlways (trim s) = true)
    (hsplit : split? 0 (stripParentheses s) = none) (site : Site) :
    (∃ c, standard.condition site (String.ofList s) = .ok c ∧ ¬ IsHollow s ∧ ¬ Range.Overflows s) ∨
      ∃ e, standard.condition site (String.ofList s) = .error e ∧ Refuses site s e := by
  have hne : trim s ≠ [] := trim_ne_nil_of_isAlways halways
  rw [standard_condition_eq, if_neg halways, hsplit]
  cases hsimple : simple? s with
  | error e =>
      obtain ⟨hoverflows, rfl⟩ := simple?_eq_error_iff.mp hsimple
      exact .inr ⟨_, rfl, .overflow hoverflows⟩
  | ok found =>
      cases found with
      | none => exact .inr ⟨_, rfl, .hollow ((simple?_eq_none_iff hne).mp hsimple)⟩
      | some c =>
          refine .inl ⟨c, rfl, fun hhollow => ?_, fun hoverflows => ?_⟩
          · cases hsimple.symm.trans (simple?_eq_none_of_isHollow hhollow)
          · cases hsimple.symm.trans (simple?_eq_error_iff.mpr ⟨hoverflows, rfl⟩)

/-- A spelling is bound if all its leaves are, and else is refused for the first of them that is not. -/
theorem standard_condition_leaves (s : List Char) (site : Site) :
    (∃ c, standard.condition site (String.ofList s) = .ok c ∧
        ∀ t ∈ leaves s, ¬ IsHollow t ∧ ¬ Range.Overflows t) ∨
      ∃ e before t after, standard.condition site (String.ofList s) = .error e ∧
        leaves s = before ++ t :: after ∧ (∀ u ∈ before, ¬ IsHollow u ∧ ¬ Range.Overflows u) ∧
        Refuses (if t = s then site else .connective) t e := by
  fun_induction leaves s generalizing site with
  | case1 s halways =>
      rw [standard_condition_eq, if_pos halways]
      exact .inl ⟨_, rfl, List.forall_mem_nil _⟩
  | case2 s halways hsplit =>
      rcases standard_condition_of_undivided halways hsplit site with ⟨c, hc, hleaf⟩ | ⟨e, he, hrefuses⟩
      · exact .inl ⟨c, hc, List.forall_mem_singleton.mpr hleaf⟩
      · refine .inr ⟨e, [], s, [], he, rfl, List.forall_mem_nil _, ?_⟩
        rwa [if_pos rfl]
  | case3 s halways left k right hsplit hshorter ihl ihr =>
      have hside {t side : List Char} {e : BindError} (hside : side.length < s.length) (ht : t ∈ leaves side)
          (hrefuses : Refuses (if t = side then .connective else .connective) t e) :
          Refuses (if t = s then site else .connective) t e := by
        have hne : t ≠ s := by
          rintro rfl
          exact (length_le_of_mem_leaves ht).not_gt hside
        rw [if_neg hne]
        rwa [ite_self] at hrefuses
      rw [standard_condition_eq, if_neg halways, hsplit]
      dsimp only
      rcases ihl .connective with ⟨l, hl, hleft⟩ | ⟨e, before, t, after, he, hleaves, hbefore, hrefuses⟩
      · rcases ihr .connective with ⟨r, hr, hright⟩ | ⟨e, before, t, after, he, hleaves, hbefore, hrefuses⟩
        · rw [hl, hr]
          exact .inl ⟨_, rfl, List.forall_mem_append.mpr ⟨hleft, hright⟩⟩
        · rw [hl, he]
          refine .inr ⟨e, leaves (stripParentheses left) ++ before, t, after, rfl, ?_,
            List.forall_mem_append.mpr ⟨hleft, hbefore⟩, hside hshorter.2 (by simp [hleaves]) hrefuses⟩
          rw [hleaves, List.append_assoc]
      · rw [he]
        refine .inr ⟨e, before, t, after ++ leaves (stripParentheses right), rfl, ?_, hbefore,
          hside hshorter.1 (by simp [hleaves]) hrefuses⟩
        rw [hleaves, List.append_assoc, List.cons_append]

/-- The standard dialect refuses exactly the spellings with a hollow leaf or a leaf with too long a duration, and
the first of these leaves tells how: a hollow one is named in the error, as the whole spelling if nothing divides
it and else as a side of a connective, and a duration out of range stops the program. -/
theorem standard_condition_refused_iff (s : String) :
    ((∃ e, standard.condition .switchCase s = .error e) ↔
        ∃ t ∈ leaves s.toList, IsHollow t ∨ Range.Overflows t) ∧
      ∀ e, standard.condition .switchCase s = .error e →
        ∃ before t after, leaves s.toList = before ++ t :: after ∧
          (∀ u ∈ before, ¬ IsHollow u ∧ ¬ Range.Overflows u) ∧
          (Range.Overflows t ∧ e = .overflow ∨
            IsHollow t ∧ ∃ site : Site, e = .unresolved .condition site (String.ofList t) ∧
              site.name = if t = s.toList then "switch case" else "boolean condition") := by
  rcases standard_condition_leaves s.toList .switchCase with
    ⟨c, hc, hleaves⟩ | ⟨e, before, t, after, he, hleaves, hbefore, hrefuses⟩
  · rw [String.ofList_toList] at hc
    refine ⟨iff_of_false ?_ fun ⟨t, ht, hleaf⟩ => hleaf.elim (hleaves t ht).1 (hleaves t ht).2, fun e he => ?_⟩
    · rintro ⟨e, he⟩
      cases hc.symm.trans he
    · cases hc.symm.trans he
  · rw [String.ofList_toList] at he
    have hmem : t ∈ leaves s.toList := by simp [hleaves]
    have hleaf : IsHollow t ∨ Range.Overflows t := by
      cases hrefuses with
      | hollow h => exact .inl h
      | overflow h => exact .inr h
    refine ⟨iff_of_true ⟨e, he⟩ ⟨t, hmem, hleaf⟩, fun e' he' => ?_⟩
    cases he.symm.trans he'
    refine ⟨before, t, after, hleaves, hbefore, ?_⟩
    cases hrefuses with
    | overflow h => exact .inl ⟨h, rfl⟩
    | hollow h =>
        refine .inr ⟨h, _, rfl, ?_⟩
        split <;> rfl

/-- A duration of more hours than are in range, in a spelling with nothing hollow. -/
theorem standard_condition_tooLong :
    standard.condition .switchCase ">PT9999999999999H" = .error .overflow ∧
      ∀ t ∈ leaves ">PT9999999999999H".toList, ¬ IsHollow t := by
  have halways : ¬ Condition.isAlways (trim ">PT9999999999999H".toList) = true := by decide
  have hsplit : split? 0 (stripParentheses ">PT9999999999999H".toList) = none := by decide +kernel
  have hoverflows : Range.parse? ">PT9999999999999H".toList = .error ⟨⟩ := by rfl
  have hsimple := simple?_eq_error_iff.mpr ⟨Range.parse?_eq_error_iff.mp hoverflows, rfl⟩
  constructor
  · have hspelling : ">PT9999999999999H" = String.ofList ">PT9999999999999H".toList := by rw [String.ofList_toList]
    rw [hspelling, standard_condition_eq, if_neg halways, hsplit, hsimple]
    rfl
  · rw [leaves, if_neg halways]
    split
    · decide
    · next h => cases hsplit.symm.trans h

end Dialect

end Phrasebook
