import Mathlib.Data.List.TakeDrop
import Phrasebook.Dialect.Basic
import Phrasebook.Proofs.Results
import Phrasebook.Proofs.Text.Blank

namespace Phrasebook

open Text

namespace Arithmetic

theorem span_snd_length_le (p : Char → Bool) (s : List Char) : (s.span p).2.length ≤ s.length := by
  rw [List.span_eq_takeWhile_dropWhile]
  exact (List.dropWhile_suffix p).length_le

theorem unsigned?_length_le {s rest : List Char} {x : Float} (h : unsigned? s = some (x, rest)) :
    rest.length ≤ s.length := by
  have hwhole := span_snd_length_le isDigit s
  unfold unsigned? at h
  split at h
  next => cases h
  next whole after _ hspan =>
    rw [hspan] at hwhole
    cases h
    split
    next t =>
      split
      · have := span_snd_length_le isDigit t
        rw [List.length_cons] at hwhole
        omega
      · exact hwhole
    next => exact hwhole

theorem step?_length_lt {s rest : List Char} {step : Operation × Float}
    (h : step? s = some (step, rest)) : rest.length < s.length := by
  cases s with
  | nil => cases h
  | cons c s =>
      rw [step?, Option.bind_eq_some_iff] at h
      obtain ⟨op, -, h⟩ := h
      obtain ⟨⟨x, after⟩, hunsigned, ⟨⟩⟩ := Option.map_eq_some_iff.mp h
      have := unsigned?_length_le hunsigned
      have := trimStart_length_le s
      rw [List.length_cons]
      omega

theorem steps_of_length_le {n m : Nat} {s : List Char} (hn : s.length ≤ n) (hm : s.length ≤ m) :
    steps n s = steps m s := by
  induction n generalizing m s with
  | zero =>
      have hs : s = [] := List.length_eq_zero_iff.mp (Nat.le_zero.mp hn)
      subst hs
      cases m <;> rfl
  | succ n ih =>
      cases m with
      | zero =>
          have hs : s = [] := List.length_eq_zero_iff.mp (Nat.le_zero.mp hm)
          subst hs
          rfl
      | succ m =>
          rw [steps, steps]
          cases hstep : step? (trimStart s) with
          | none => rfl
          | some found =>
              obtain ⟨step, rest⟩ := found
              have := step?_length_lt hstep
              have := trimStart_length_le s
              have hrest : steps n rest = steps m rest := ih (by omega) (by omega)
              dsimp only
              rw [hrest]

theorem parse?_trimStart (s : List Char) : parse? (trimStart s) = parse? s := by
  have hlength := trimStart_length_le s
  unfold parse?
  rw [steps_of_length_le (Nat.le_refl _) hlength]
  cases s with
  | nil => rfl
  | cons c s =>
      rw [List.length_cons, steps, steps, trimStart_idem]
      cases step? (trimStart (c :: s)) <;> rfl

end Arithmetic

theorem Connective.stripParentheses_trimStart (s : List Char) :
    stripParentheses (trimStart s) = stripParentheses s := by
  rw [stripParentheses, stripParentheses, trim_trimStart]

theorem Range.parse?_trimStart (s : List Char) : parse? (trimStart s) = parse? s := by
  unfold parse? bounds? bracketed? half?
  rw [trim_trimStart]

theorem ValueList.parse?_trimStart (s : List Char) : parse? (trimStart s) = parse? s := by
  unfold parse?
  rw [trim_trimStart]

namespace Dialect

/-- Blanks in front of a condition do not matter to any rule but a host's. -/
theorem acceptCondition?_trimStart {rule : ConditionRule} (h : ∀ f, rule ≠ .host f) (s : List Char) :
    acceptCondition? rule (trimStart s) = acceptCondition? rule s := by
  cases rule with
  | arithmetic => rw [acceptCondition?, acceptCondition?, Arithmetic.parse?_trimStart]
  | interval => rw [acceptCondition?, acceptCondition?, Range.parse?_trimStart]
  | valueList => rw [acceptCondition?, acceptCondition?, ValueList.parse?_trimStart]
  | host f => exact (h f rfl).elim
  | connective => rfl
  | takeAll | stored | plural =>
      unfold acceptCondition?
      dsimp only
      rw [trim_trimStart]

theorem conditionFrom_connective (rules pending : List ConditionRule) (site : Site) (s : List Char) :
    conditionFrom rules site s (.connective :: pending) =
      match Connective.split? 0 (Connective.stripParentheses s) with
      | none => conditionFrom rules site s pending
      | some (left, connective, right) => do
        let left ← conditionFrom rules .connective (Connective.stripParentheses left) rules
        let right ← conditionFrom rules .connective (Connective.stripParentheses right) rules
        return .connective left connective right := by
  rw [conditionFrom]
  split
  next h => rw [h]
  next left connective right h =>
    split
    next h' => cases h.symm.trans h'
    next h' =>
      cases h.symm.trans h'
      rfl

theorem conditionFrom_cons {rule : ConditionRule} (hrule : rule ≠ .connective)
    (rules pending : List ConditionRule) (site : Site) (s : List Char) :
    conditionFrom rules site s (rule :: pending) =
      acceptCondition? rule s >>= fun found => found.elim (conditionFrom rules site s pending) .ok := by
  rw [conditionFrom]
  · refine congrArg _ (funext fun found => ?_)
    cases found <;> rfl
  · exact hrule

theorem conditionFrom_trimStart {rules pending : List ConditionRule} (h : ∀ f, .host f ∉ pending)
    (site : Site) (s : List Char) {c : Condition} :
    conditionFrom rules site (trimStart s) pending = .ok c ↔ conditionFrom rules site s pending = .ok c := by
  induction pending with
  | nil =>
      rw [conditionFrom, conditionFrom]
      constructor <;> rintro ⟨⟩
  | cons rule pending ih =>
      have hpending := ih fun f hf => h f (List.mem_cons_of_mem rule hf)
      by_cases hrule : rule = .connective
      · subst hrule
        rw [conditionFrom_connective, conditionFrom_connective, Connective.stripParentheses_trimStart]
        split
        · exact hpending
        · exact Iff.rfl
      · have hhost : ∀ f, rule ≠ .host f := by
          rintro f rfl
          exact h f List.mem_cons_self
        rw [conditionFrom_cons hrule, conditionFrom_cons hrule, acceptCondition?_trimStart hhost]
        simp only [bind_eq_ok_iff]
        refine exists_congr fun found => and_congr_right fun _ => ?_
        cases found with
        | none => exact hpending
        | some => exact Iff.rfl

theorem conditionFrom_site {rules pending : List ConditionRule} {site : Site} {s : List Char} {c : Condition}
    (h : conditionFrom rules site s pending = .ok c) (site' : Site) :
    conditionFrom rules site' s pending = .ok c := by
  induction pending with
  | nil =>
      rw [conditionFrom] at h
      cases h
  | cons rule pending ih =>
      by_cases hrule : rule = .connective
      · subst hrule
        rw [conditionFrom_connective] at h ⊢
        split at h
        · exact ih h
        · exact h
      · rw [conditionFrom_cons hrule] at h ⊢
        obtain ⟨found, haccept, hfound⟩ := bind_eq_ok_iff.mp h
        refine bind_eq_ok_iff.mpr ⟨found, haccept, ?_⟩
        cases found with
        | none => exact ih hfound
        | some => exact hfound

/-- A text that no connective splits has the condition of the first rule that accepts it. -/
theorem conditionFrom_undivided {pending : List ConditionRule} (rules : List ConditionRule) (site : Site)
    {s : List Char}
    (h : .connective ∈ pending → Connective.split? 0 (Connective.stripParentheses s) = none) :
    conditionFrom rules site s pending =
      pending.findSomeM? (acceptCondition? · s) >>= fun found =>
        found.elim (.error (.unresolved .condition site (String.ofList s))) .ok := by
  induction pending with
  | nil =>
      rw [conditionFrom]
      rfl
  | cons rule pending ih =>
      have hpending := ih fun hmem => h (List.mem_cons_of_mem rule hmem)
      rw [List.findSomeM?_cons, bind_assoc]
      by_cases hrule : rule = .connective
      · subst hrule
        rw [conditionFrom_connective, h List.mem_cons_self]
        exact hpending
      · rw [conditionFrom_cons hrule]
        refine congrArg _ (funext fun found => ?_)
        cases found with
        | none => exact hpending
        | some c => rfl

theorem condition_site {d : Dialect} {site : Site} {text : String} {c : Condition}
    (h : d.condition site text = .ok c) (site' : Site) : d.condition site' text = .ok c :=
  conditionFrom_site h site'

end Dialect

end Phrasebook
