import Phrasebook.Proofs.Condition.Rules
import Phrasebook.Proofs.Condition.Splitting
import Phrasebook.Proofs.Dialect.Binding

namespace Phrasebook

open Text

theorem Condition.not_blank_of_isAlways {s : List Char} (h : isAlways s = true) : ∀ c ∈ s, isBlank c = false := by
  have hword {word : String} (hword : ∀ d ∈ lowerAscii word.toList, isBlank d = false)
      (h : equalIgnoringCase s word.toList = true) : ∀ c ∈ s, isBlank c = false := by
    intro c hc
    by_contra hblank
    rw [Bool.not_eq_false] at hblank
    have hmem : c.toLower ∈ lowerAscii word.toList := beq_iff_eq.mp h ▸ List.mem_map_of_mem hc
    rw [toLower_of_isBlank hblank] at hmem
    rw [hword c hmem] at hblank
    cases hblank
  rw [isAlways, Bool.or_eq_true, Bool.or_eq_true, beq_iff_eq] at h
  rcases h with (rfl | h) | h
  · nofun
  · exact hword (by decide) h
  · exact hword (by decide) h

namespace Dialect

variable {site : Site} {s : List Char} {c : Condition}

theorem split?_of_isAlways (h : Condition.isAlways (trim s) = true) :
    Connective.split? 0 (Connective.stripParentheses s) = none := by
  refine Connective.split?_eq_none_of_not_blank (fun c hc => ?_) 0
  rw [← Connective.stripParentheses_trim] at hc
  exact Condition.not_blank_of_isAlways h c (Connective.stripParentheses_subset _ hc)

def simple? (s : List Char) : Except BindError (Option Condition) :=
  [ConditionRule.stored, .arithmetic, .interval, .plural, .valueList].findSomeM? (acceptCondition? · s)

theorem standard_condition_eq (site : Site) (s : List Char) :
    standard.condition site (String.ofList s) =
      if Condition.isAlways (trim s) then .ok .always
      else
        match Connective.split? 0 (Connective.stripParentheses s) with
        | some (left, k, right) => do
            let left ← standard.condition .connective (String.ofList (Connective.stripParentheses left))
            let right ← standard.condition .connective (String.ofList (Connective.stripParentheses right))
            return .connective left k right
        | none =>
            simple? s >>= fun found => found.elim (.error (.unresolved .condition site (String.ofList s))) .ok := by
  have htakeAll : ConditionRule.takeAll ≠ .connective := nofun
  have hplain : ConditionRule.connective ∉ [ConditionRule.stored, .arithmetic, .interval, .plural, .valueList] := by
    simp
  have htrue : acceptCondition? .takeAll s = .ok (if Condition.isAlways (trim s) then some .always else none) := rfl
  simp only [condition, String.toList_ofList]
  -- the rules to be tried are written out; those for the sides of a connective are not
  change conditionFrom standard.conditions site s
    [.takeAll, .connective, .stored, .arithmetic, .interval, .plural, .valueList] = _
  rw [conditionFrom_cons htakeAll, conditionFrom_connective, conditionFrom_undivided _ _ fun h => (hplain h).elim,
    htrue]
  cases Condition.isAlways (trim s) with
  | true => rfl
  | false =>
      cases Connective.split? 0 (Connective.stripParentheses s) with
      | none => rfl
      | some found => rfl

theorem standard_condition_eq_ok_iff :
    standard.condition site (String.ofList s) = .ok c ↔
      Condition.isAlways (trim s) = true ∧ c = .always ∨
        Condition.isAlways (trim s) = false ∧ Connective.split? 0 (Connective.stripParentheses s) = none ∧
          simple? s = .ok (some c) ∨
        ∃ l k r left right, Connective.split? 0 (Connective.stripParentheses s) = some (l, k, r) ∧
          standard.condition .connective (String.ofList (Connective.stripParentheses l)) = .ok left ∧
          standard.condition .connective (String.ofList (Connective.stripParentheses r)) = .ok right ∧
          c = .connective left k right := by
  rw [standard_condition_eq]
  cases halways : Condition.isAlways (trim s) with
  | true =>
      rw [split?_of_isAlways halways]
      simp [eq_comm]
  | false =>
      cases hsplit : Connective.split? 0 (Connective.stripParentheses s) with
      | none => simp [bind_elim_eq_ok_iff]
      | some found =>
          obtain ⟨l, k, r⟩ := found
          simp only [Bool.false_eq_true, if_false, bind_eq_ok_iff, pure_eq_ok_iff, Option.some.injEq,
            Prod.mk.injEq, reduceCtorEq, false_and, and_false, false_or]
          constructor
          · rintro ⟨left, hleft, right, hright, rfl⟩
            exact ⟨l, k, r, left, right, ⟨rfl, rfl, rfl⟩, hleft, hright, rfl⟩
          · rintro ⟨_, _, _, left, right, ⟨rfl, rfl, rfl⟩, hleft, hright, rfl⟩
            exact ⟨left, hleft, right, hright, rfl⟩

theorem standard_condition_of_simple (hsplit : Connective.split? 0 (Connective.stripParentheses s) = none)
    (halways : Condition.isAlways (trim s) = false) (hs : simple? s = .ok (some c)) (site : Site) :
    standard.condition site (String.ofList s) = .ok c :=
  standard_condition_eq_ok_iff.mpr (.inr (.inl ⟨halways, hsplit, hs⟩))

theorem exists_of_stored? (h : Condition.stored? s = some c) : ∃ space key, c = .stored space key := by
  unfold Condition.stored? at h
  split at h
  · split at h
    · cases h
    · split at h <;> cases h <;> exact ⟨_, _, rfl⟩
  · cases h

/-- What a condition with none inside it can be, and which of them is a range. -/
theorem simple?_cases (h : simple? s = .ok (some c)) :
    (∃ r, c = .range r ∧ Range.parse? s = .ok (some r)) ∨
      (∀ r, c ≠ .range r) ∧ ∀ left k right, c ≠ .connective left k right := by
  obtain ⟨rule, hrule, haccept⟩ := exists_of_findSomeM? h
  simp only [List.mem_cons, List.not_mem_nil, or_false] at hrule
  rcases hrule with rfl | rfl | rfl | rfl | rfl
  · obtain ⟨space, key, rfl⟩ := exists_of_stored? (Except.ok.inj haccept)
    exact .inr (by simp)
  · obtain ⟨a, -, rfl⟩ := Option.map_eq_some_iff.mp (Except.ok.inj haccept)
    exact .inr (by simp)
  · rw [acceptCondition?] at haccept
    split at haccept
    next found hfound =>
      obtain ⟨r, rfl, rfl⟩ := Option.map_eq_some_iff.mp (Except.ok.inj haccept)
      exact .inl ⟨r, rfl, hfound⟩
    next => cases haccept
  · obtain ⟨category, -, rfl⟩ := Option.map_eq_some_iff.mp (Except.ok.inj haccept)
    exact .inr (by simp)
  · obtain ⟨values, -, rfl⟩ := Option.map_eq_some_iff.mp (Except.ok.inj haccept)
    exact .inr (by simp)

theorem standard_condition_connective_iff {left right : Condition} {k : Connective} :
    standard.condition site (String.ofList s) = .ok (.connective left k right) ↔
      ∃ l r, Connective.split? 0 (Connective.stripParentheses s) = some (l, k, r) ∧
        standard.condition .connective (String.ofList (Connective.stripParentheses l)) = .ok left ∧
        standard.condition .connective (String.ofList (Connective.stripParentheses r)) = .ok right := by
  rw [standard_condition_eq_ok_iff]
  constructor
  · rintro (⟨-, ⟨⟩⟩ | ⟨-, -, hsimple⟩ | ⟨l, _, r, _, _, hsplit, hleft, hright, ⟨⟩⟩)
    · rcases simple?_cases hsimple with ⟨r, ⟨⟩, -⟩ | ⟨-, hne⟩
      exact (hne _ _ _ rfl).elim
    · exact ⟨l, r, hsplit, hleft, hright⟩
  · rintro ⟨l, r, hsplit, hleft, hright⟩
    exact .inr (.inr ⟨l, k, r, left, right, hsplit, hleft, hright, rfl⟩)

/-- The spelling of a range is divided by no connective. -/
theorem standard_condition_of_range {r : Range} (h : standard.condition site (String.ofList s) = .ok (.range r)) :
    Range.parse? s = .ok (some r) ∧ Connective.split? 0 (Connective.stripParentheses s) = none := by
  rcases standard_condition_eq_ok_iff.mp h with ⟨-, ⟨⟩⟩ | ⟨-, hsplit, hsimple⟩ | ⟨_, _, _, _, _, -, -, -, ⟨⟩⟩
  rcases simple?_cases hsimple with ⟨_, ⟨⟩, hr⟩ | ⟨hne, -⟩
  · exact ⟨hr, hsplit⟩
  · exact (hne r rfl).elim

end Dialect

end Phrasebook
