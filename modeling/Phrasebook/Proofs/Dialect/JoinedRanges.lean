import Phrasebook.Proofs.Condition.Padding
import Phrasebook.Proofs.Condition.Ranges
import Phrasebook.Proofs.Dialect.Junctions

namespace Phrasebook

open Text Connective Junction

namespace Dialect

variable {site : Site} {s t gap : List Char} {k : Connective} {left right b c : Condition} {r : Range}

theorem simple?_trim (s : List Char) : simple? (trim s) = simple? s := by
  simp only [simple?, acceptCondition?, List.findSomeM?_cons, List.findSomeM?_nil, trim_idem,
    Arithmetic.parse?_trim, Range.parse?_trim, ValueList.parse?_trim]

theorem standard_condition_trim :
    standard.condition site (String.ofList (trim s)) = .ok c ↔ standard.condition site (String.ofList s) = .ok c := by
  rw [standard_condition_eq_ok_iff, standard_condition_eq_ok_iff, trim_idem, stripParentheses_trim, simple?_trim]

theorem split?_eq_none_of_condition (h : standard.condition site (String.ofList s) = .ok c)
    (hc : ∀ left k right, c ≠ .connective left k right) : split? 0 (stripParentheses s) = none := by
  rcases standard_condition_eq_ok_iff.mp h with ⟨halways, -⟩ | ⟨-, hsplit, -⟩ | ⟨_, k, _, left, right, -, -, -, rfl⟩
  · exact split?_of_isAlways halways
  · exact hsplit
  · exact (hc left k right rfl).elim

theorem exists_gap_after (s : List Char) :
    ∃ w gap, (∀ c ∈ w, isBlank c = true) ∧ IsGap gap ∧ s ++ [' '] = w ++ trim s ++ gap := by
  obtain ⟨w, w', hw, hw', heq⟩ := exists_blanks_trim s
  refine ⟨w, w' ++ [' '], hw, ⟨by simp, List.forall_mem_append.mpr ⟨hw', isGap_blank.blank⟩⟩, ?_⟩
  conv_lhs => rw [heq]
  simp

theorem exists_gap_before (t : List Char) :
    ∃ gap w, IsGap gap ∧ (∀ c ∈ w, isBlank c = true) ∧ ' ' :: t = gap ++ trim t ++ w := by
  obtain ⟨w, w', hw, hw', heq⟩ := exists_blanks_trim t
  refine ⟨' ' :: w, w', ⟨by simp, List.forall_mem_cons.mpr ⟨rfl, hw⟩⟩, hw', ?_⟩
  conv_lhs => rw [heq]
  simp

theorem append_between (s : List Char) (k : Connective) (t : List Char) :
    s ++ between k ++ t = s ++ [' '] ++ k.name.toList ++ ' ' :: t := by
  simp [between]

theorem trim_join (hs : trim s ≠ []) (ht : trim t ≠ []) (k : Connective) :
    ∃ gap gap', IsGap gap ∧ IsGap gap' ∧
      trim (s ++ between k ++ t) = trim s ++ (gap ++ k.name.toList ++ gap') ++ trim t := by
  obtain ⟨w, gap, hw, hgap, heq⟩ := exists_gap_after s
  obtain ⟨gap', w', hgap', hw', heq'⟩ := exists_gap_before t
  refine ⟨gap, gap', hgap, hgap', ?_⟩
  have hassoc : s ++ between k ++ t = w ++ (trim s ++ (gap ++ k.name.toList ++ gap') ++ trim t) ++ w' := by
    rw [append_between, heq, heq']
    simp
  rw [hassoc, trim_blanks_append hw _ hw', ((isTrimmed_trim hs).append (isTrimmed_trim ht) _).trim_eq]

theorem split?_join_blank (hs : trim s ≠ []) (ht : trim t = []) (hparen : '(' ∉ trim s)
    (hundivided : Undivided (trim s)) (k : Connective) :
    split? 0 (stripParentheses (s ++ between k ++ t)) = none := by
  have hword := isWord_name k
  obtain ⟨w, gap, hw, hgap, heq⟩ := exists_gap_after s
  have hend : ∀ c ∈ ' ' :: t, isBlank c = true := List.forall_mem_cons.mpr ⟨rfl, trim_eq_nil_iff.mp ht⟩
  have hassoc : s ++ between k ++ t = w ++ (trim s ++ gap ++ k.name.toList) ++ ' ' :: t := by
    rw [append_between, heq]
    simp
  have hat : at? k.name.toList = none := by
    rw [at?_eq_none_iff, trimStart_of_head? hword.isTrimmed.head]
    exact fun hne => (hne (afterFirst_eq_nil_iff.mpr hword.blank_free)).elim
  have hpasses : Passes (trim s) := passes_of_undivided hundivided (isTrimmed_trim hs).last (foldl_depthAfter hparen)
  rw [hassoc, stripParentheses_blanks_append hw _ hend,
    stripParentheses_join (isTrimmed_trim hs) hword.isTrimmed hparen, List.append_assoc,
    hpasses _ (hgap.head_append _), split?_blanks_append hgap.blank hat,
    split?_eq_none_of_not_blank hword.blank_free]
  rfl

theorem split?_blank_join (hs : trim s = []) (ht : trim t ≠ []) (hundivided : Undivided (trim t))
    (hfirst : ∀ k, ¬ IsWord k (firstWord (trim t))) (k : Connective) :
    split? 0 (stripParentheses (s ++ between k ++ t)) = none := by
  have hname := (isWord_name k).isTrimmed
  obtain ⟨gap, w, hgap, hw, heq⟩ := exists_gap_before t
  have hstart : ∀ c ∈ s ++ [' '], isBlank c = true :=
    List.forall_mem_append.mpr ⟨trim_eq_nil_iff.mp hs, isGap_blank.blank⟩
  have hassoc : s ++ between k ++ t = s ++ [' '] ++ (k.name.toList ++ gap ++ trim t) ++ w := by
    rw [append_between, heq]
    simp
  have hat : at? (trim t) = none := by
    rw [at?_eq_none_iff, trimStart_of_head? (isTrimmed_trim ht).head]
    exact fun _ => hfirst
  have hlone : Undivided k.name.toList := by
    cases k <;> decide
  have hpasses : Passes k.name.toList :=
    passes_of_undivided hlone hname.last (foldl_depthAfter (not_mem_name k))
  rw [hassoc, stripParentheses_blanks_append hstart _ hw,
    stripParentheses_join hname (isTrimmed_trim ht) (not_mem_name k), List.append_assoc,
    hpasses _ (hgap.head_append _), split?_blanks_append hgap.blank hat,
    split?_eq_none_of_undivided (isTrimmed_trim ht) hundivided]
  rfl

/-- A spelling is bound to its two conditions if the first one has no parenthesis and nothing in it that could be a
connective, and the second one is not in parentheses. -/
theorem standard_condition_join (hs : trim s ≠ []) (ht : trim t ≠ []) (hparen : '(' ∉ trim s)
    (hundivided : Undivided (trim s)) (hstrip : stripParentheses (trim t) = trim t)
    (hleft : standard.condition .switchCase (String.ofList s) = .ok left)
    (hright : standard.condition .switchCase (String.ofList t) = .ok right) (k : Connective) (site : Site) :
    standard.condition site (String.ofList (s ++ between k ++ t)) = .ok (.connective left k right) := by
  obtain ⟨gap, gap', hgap, hgap', htrim⟩ := trim_join hs ht k
  have hsplit := split?_join (isTrimmed_trim hs) (isTrimmed_trim ht) hparen hundivided hgap (isWord_name k) hgap'
  rw [← htrim, stripParentheses_trim] at hsplit
  refine standard_condition_connective_iff.mpr ⟨_, _, hsplit, ?_, ?_⟩
  · rw [stripParentheses_of_not_mem (isTrimmed_trim hs) hparen]
    exact standard_condition_trim.mpr (condition_site hleft _)
  · rw [hstrip]
    exact standard_condition_trim.mpr (condition_site hright _)

theorem not_range_of_isWord (ht : IsTrimmed t) (hgap : IsGap gap) :
    standard.condition site (String.ofList (stripParentheses (k.name.toList ++ gap ++ t))) ≠ .ok (.range r) := by
  have hword := isWord_name k
  have hname := (isWord_name k).isTrimmed
  rw [stripParentheses_join hname ht (not_mem_name k)]
  intro h
  refine Range.not_isWord_of_parse? (standard_condition_of_range h).1 k ?_
  rwa [(hname.append ht gap).trim_eq, List.append_assoc, firstWord_append _ (hgap.head_append t),
    firstWord_eq_self hword.blank_free]

/-- A range is a side of its own only if the text before it does not end in a connective. -/
theorem undivided_of_join (hs : trim s ≠ []) (ht : trim t ≠ []) (hparen : '(' ∉ trim s)
    (hsplit : split? 0 (trim s) = none)
    (h : standard.condition site (String.ofList (s ++ between k ++ t)) = .ok (.connective b k (.range r))) :
    Undivided (trim s) := by
  by_contra hdivided
  obtain ⟨gap, gap', hgap, hgap', htrim⟩ := trim_join hs ht k
  obtain ⟨c, gap, rfl⟩ := List.exists_cons_of_ne_nil hgap.ne_nil
  obtain ⟨l, k', hfound⟩ := split?_append_of_divided hparen hsplit hdivided (isTrimmed_trim hs).last
    (hgap.blank c List.mem_cons_self) (gap ++ (k.name.toList ++ gap' ++ trim t))
  have hhead : ∀ d ∈ (k.name.toList ++ gap' ++ trim t).head?, isBlank d = false :=
    ((isWord_name k).isTrimmed.append (isTrimmed_trim ht) gap').head
  have hself : stripParentheses (s ++ between k ++ t) =
      trim s ++ c :: (gap ++ (k.name.toList ++ gap' ++ trim t)) := by
    rw [← stripParentheses_trim, htrim, stripParentheses_join (isTrimmed_trim hs) (isTrimmed_trim ht) hparen]
    simp
  rw [← hself, ← List.cons_append, trimStart_blanks_append hgap.blank, trimStart_of_head? hhead] at hfound
  obtain ⟨_, _, hfound', -, hright⟩ := standard_condition_connective_iff.mp h
  cases hfound.symm.trans hfound'
  exact not_range_of_isWord (isTrimmed_trim ht) hgap' hright

theorem trim_ne_nil_of_range (h : standard.condition site (String.ofList s) = .ok (.range r)) : trim s ≠ [] := by
  obtain ⟨bounds, hdelimits, -⟩ := Range.exists_delimits_of_parse? (standard_condition_of_range h).1
  obtain ⟨c, u, hu, -⟩ := hdelimits.head
  exact hu ▸ List.cons_ne_nil c u

/-- A range without an opening parenthesis keeps its meaning if something comes after the connective. -/
theorem range_join_iff (hrange : standard.condition .switchCase (String.ofList s) = .ok (.range r))
    (hother : standard.condition .switchCase (String.ofList t) = .ok b) (hparen : '(' ∉ s) (hparen' : '(' ∉ t) :
    standard.condition site (String.ofList (s ++ between k ++ t)) = .ok (.connective (.range r) k b) ↔
      trim t ≠ [] := by
  have hs := trim_ne_nil_of_range hrange
  have hopen : '(' ∉ trim s := fun h => hparen (trim_subset s h)
  have hundivided : Undivided (trim s) := Range.undivided_of_parse? (standard_condition_of_range hrange).1
  constructor
  · intro h ht
    obtain ⟨_, _, hsplit, -⟩ := standard_condition_connective_iff.mp h
    rw [split?_join_blank hs ht hopen hundivided] at hsplit
    cases hsplit
  · intro ht
    have hstrip := stripParentheses_of_not_mem (isTrimmed_trim ht) fun h => hparen' (trim_subset t h)
    exact standard_condition_join hs ht hopen hundivided hstrip hrange hother k site

/-- A range that is not enclosed in parentheses keeps its meaning after a text that does not end in a connective. -/
theorem join_range_iff (hrange : standard.condition .switchCase (String.ofList s) = .ok (.range r))
    (hother : standard.condition .switchCase (String.ofList t) = .ok b)
    (hb : ∀ left k right, b ≠ .connective left k right) (hparen : '(' ∉ t)
    (hends : ¬ ((trim s).head? = some '(' ∧ (trim s).getLast? = some ')')) :
    standard.condition site (String.ofList (t ++ between k ++ s)) = .ok (.connective b k (.range r)) ↔
      trim t ≠ [] ∧ Undivided (trim t) := by
  have hs := trim_ne_nil_of_range hrange
  have hopen : '(' ∉ trim t := fun h => hparen (trim_subset t h)
  obtain ⟨hparse, -⟩ := standard_condition_of_range hrange
  constructor
  · intro h
    have ht : trim t ≠ [] := by
      intro ht
      obtain ⟨_, _, hsplit, -⟩ := standard_condition_connective_iff.mp h
      rw [split?_blank_join ht hs (Range.undivided_of_parse? hparse) (Range.not_isWord_of_parse? hparse)] at hsplit
      cases hsplit
    have hsplit := split?_eq_none_of_condition hother hb
    rw [← stripParentheses_trim, stripParentheses_of_not_mem (isTrimmed_trim ht) hopen] at hsplit
    exact ⟨ht, undivided_of_join ht hs hopen hsplit h⟩
  · rintro ⟨ht, hundivided⟩
    have hstrip : stripParentheses (trim s) = trim s := by
      refine stripParentheses_eq_self (trim_idem s) fun u hu => ?_
      by_contra hcloses
      rw [Bool.not_eq_false] at hcloses
      refine hends ⟨by rw [hu]; rfl, ?_⟩
      rw [hu, List.getLast?_cons, getLast?_of_closesAtEnd hcloses]
      rfl
    exact standard_condition_join ht hs hopen hundivided hstrip hother hrange k site

/-- A range keeps its meaning before a connective, unless a parenthesis opens in it, and after one, unless it is
enclosed in parentheses. What it is joined with has to be there, and must not end in a connective before it. -/
theorem standard_condition_range_join {interval other : String}
    (hrange : standard.condition .switchCase interval = .ok (.range r))
    (hother : standard.condition .switchCase other = .ok b) (hb : ∀ left k right, b ≠ .connective left k right)
    (hparens : ∀ c ∈ other.toList, c ≠ '(' ∧ c ≠ ')') (k : Connective) (site : Site) :
    ('(' ∉ interval.toList →
        (standard.condition site (interval ++ " " ++ k.name ++ " " ++ other) = .ok (.connective (.range r) k b) ↔
          trim other.toList ≠ [])) ∧
      (¬ ((trim interval.toList).head? = some '(' ∧ (trim interval.toList).getLast? = some ')') →
        (standard.condition site (other ++ " " ++ k.name ++ " " ++ interval) = .ok (.connective b k (.range r)) ↔
          trim other.toList ≠ [] ∧ Undivided (trim other.toList))) := by
  have hjoin (s t : String) : s ++ " " ++ k.name ++ " " ++ t = String.ofList (s.toList ++ between k ++ t.toList) := by
    rw [String.ext_iff]
    simp [between]
  have hparen : '(' ∉ other.toList := fun h => (hparens _ h).1 rfl
  rw [← String.ofList_toList (s := interval)] at hrange
  rw [← String.ofList_toList (s := other)] at hother
  rw [hjoin, hjoin]
  exact ⟨fun hopen => range_join_iff hrange hother hopen hparen,
    fun hends => join_range_iff hrange hother hb hparen hends⟩

def hours (minInclusive maxInclusive : Bool) : Range :=
  .spans ⟨some ⟨3600000000000⟩, some ⟨7200000000000⟩, minInclusive, maxInclusive⟩

theorem standard_condition_range_join_hours :
    standard.condition .switchCase "[PT1H,PT2H) and few" =
        .ok (.connective (.range (hours true false)) .and (.plural .few)) ∧
      standard.condition .switchCase "few and [PT1H,PT2H)" =
        .ok (.connective (.plural .few) .and (.range (hours true false))) := by
  have hrange : standard.condition .switchCase "[PT1H,PT2H)" = .ok (.range (hours true false)) :=
    standard_condition_of_simple (s := "[PT1H,PT2H)".toList) (by decide +kernel) (by decide) rfl _
  have hfew : standard.condition .switchCase "few" = .ok (.plural .few) :=
    standard_condition_of_simple (s := "few".toList) (by decide +kernel) (by decide) rfl _
  obtain ⟨hbefore, hafter⟩ := standard_condition_range_join hrange hfew (by nofun) (by decide) .and .switchCase
  have hspelled : "[PT1H,PT2H)" ++ " " ++ Connective.and.name ++ " " ++ "few" = "[PT1H,PT2H) and few" := by decide
  have hspelled' : "few" ++ " " ++ Connective.and.name ++ " " ++ "[PT1H,PT2H)" = "few and [PT1H,PT2H)" := by decide
  rw [← hspelled, ← hspelled']
  exact ⟨(hbefore (by decide)).mpr (by decide), (hafter (by decide)).mpr (by decide)⟩

/-- A range is lost next to a blank text and after one that ends in a connective, and so is one of which a
parenthesis is taken for a grouping one. -/
theorem standard_condition_range_lost :
    (standard.condition .switchCase "[PT1H,PT2H]" = .ok (.range (hours true true)) ∧
        standard.condition .switchCase "" = .ok .always ∧
        standard.condition .switchCase "[PT1H,PT2H] and " =
          .ok (.oneOf ⟨.strings ["[PT1H", "PT2H] and"], false⟩)) ∧
      (standard.condition .switchCase "x or" = .ok (.oneOf ⟨.strings ["x or"], false⟩) ∧
        standard.condition .switchCase "x or and [PT1H,PT2H]" =
          .ok (.connective (.oneOf ⟨.strings ["x"], false⟩) .or (.oneOf ⟨.strings ["and [PT1H", "PT2H]"], false⟩))) ∧
      standard.condition .switchCase "(PT1H,PT2H)" = .ok (.range (hours false false)) ∧
        standard.condition .switchCase "other" = .ok .always ∧
        standard.condition .switchCase "(PT1H,PT2H) and other" =
          .ok (.connective (.oneOf ⟨.strings ["PT1H", "PT2H"], false⟩) .and .always) := by
  have hother (site : Site) : standard.condition site (String.ofList "other".toList) = .ok .always :=
    standard_condition_eq_ok_iff.mpr (.inl ⟨by decide, rfl⟩)
  refine ⟨⟨?_, ?_, ?_⟩, ⟨?_, ?_⟩, ?_, ?_, ?_⟩
  · exact standard_condition_of_simple (s := "[PT1H,PT2H]".toList) (by decide +kernel) (by decide) rfl _
  · exact standard_condition_eq_ok_iff.mpr (.inl ⟨by decide, rfl⟩)
  · exact standard_condition_of_simple (s := "[PT1H,PT2H] and ".toList) (by decide +kernel) (by decide) rfl _
  · exact standard_condition_of_simple (s := "x or".toList) (by decide +kernel) (by decide) rfl _
  · refine standard_condition_connective_iff.mpr ⟨"x".toList, "and [PT1H,PT2H]".toList, by decide +kernel, ?_, ?_⟩
    · have hstrip : stripParentheses "x".toList = "x".toList := by decide +kernel
      rw [hstrip]
      exact standard_condition_of_simple (by decide +kernel) (by decide) rfl _
    · have hstrip : stripParentheses "and [PT1H,PT2H]".toList = "and [PT1H,PT2H]".toList := by decide +kernel
      rw [hstrip]
      exact standard_condition_of_simple (by decide +kernel) (by decide) rfl _
  · exact standard_condition_of_simple (s := "(PT1H,PT2H)".toList) (by decide +kernel) (by decide) rfl _
  · exact hother _
  · refine standard_condition_connective_iff.mpr ⟨"(PT1H,PT2H)".toList, "other".toList, by decide +kernel, ?_, ?_⟩
    · have hstrip : stripParentheses "(PT1H,PT2H)".toList = "PT1H,PT2H".toList := by decide +kernel
      rw [hstrip]
      exact standard_condition_of_simple (by decide +kernel) (by decide) rfl _
    · have hstrip : stripParentheses "other".toList = "other".toList := by decide +kernel
      rw [hstrip]
      exact hother _

end Dialect

end Phrasebook
