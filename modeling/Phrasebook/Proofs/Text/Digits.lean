import Mathlib.Algebra.Group.Nat.Defs
import Mathlib.Data.List.Induction
import Mathlib.Data.List.TakeDrop
import Phrasebook.Decimal.Reading

namespace Phrasebook

open Text

theorem digitsValue_append (s t : List Char) :
    digitsValue (s ++ t) = digitsValue s * 10 ^ t.length + digitsValue t := by
  change Nat.ofDigitChars 10 (s ++ t) 0 = _
  rw [Nat.ofDigitChars_append, Nat.ofDigitChars_eq_ofDigitChars_zero, Nat.mul_comm]
  rfl

theorem digitsValue_zeros (n : Nat) : digitsValue (List.replicate n '0') = 0 := by
  change Nat.ofDigitChars 10 (List.replicate n '0') 0 = 0
  simp [Nat.ofDigitChars_replicate_zero]

theorem digitsValue_decimalDigits (n : Nat) : digitsValue (decimalDigits n) = n :=
  Nat.ofDigitChars_ten_toDigits

theorem digitsValue_padded (width n : Nat) : digitsValue (padLeft '0' width (decimalDigits n)) = n := by
  rw [padLeft, digitsValue_append, digitsValue_zeros, digitsValue_decimalDigits, Nat.zero_mul, Nat.zero_add]

theorem isDigit_eq_true_iff {c : Char} : isDigit c = true ↔ 48 ≤ c.toNat ∧ c.toNat ≤ 57 := by
  rw [isDigit, Bool.and_eq_true, decide_eq_true_iff, decide_eq_true_iff]
  exact Iff.rfl

theorem digitsValue_lt {s : List Char} (h : ∀ c ∈ s, isDigit c = true) : digitsValue s < 10 ^ s.length := by
  induction s using List.reverseRecOn with
  | nil => decide
  | append_singleton s c ih =>
      rw [List.forall_mem_append, List.forall_mem_singleton, isDigit_eq_true_iff] at h
      have hs := ih h.1
      have hc : digitsValue [c] ≤ 9 := by
        change 10 * 0 + (c.toNat - 48) ≤ 9
        omega
      rw [digitsValue_append, List.length_append, List.length_singleton, Nat.pow_add]
      omega

theorem isDigit_of_mem_decimalDigits {n : Nat} {c : Char} (h : c ∈ decimalDigits n) : isDigit c = true := by
  have hdigit := Nat.isDigit_of_mem_toDigits (by decide) (by decide) h
  rw [Char.isDigit_iff_toNat] at hdigit
  exact isDigit_eq_true_iff.mpr hdigit

theorem isDigit_of_mem_padded {width n : Nat} {c : Char} (h : c ∈ padLeft '0' width (decimalDigits n)) :
    isDigit c = true := by
  rcases List.mem_append.mp h with h | h
  · rw [List.eq_of_mem_replicate h]
    rfl
  · exact isDigit_of_mem_decimalDigits h

theorem padded_ne_nil (width n : Nat) : padLeft '0' width (decimalDigits n) ≠ [] := by
  simp [padLeft, decimalDigits, Nat.toDigits_ne_nil]

theorem length_padded {width n : Nat} (hwidth : 0 < width) (h : n < 10 ^ width) :
    (padLeft '0' width (decimalDigits n)).length = width := by
  have hle : (decimalDigits n).length ≤ width := (Nat.length_toDigits_le_iff (by decide) hwidth).mpr h
  rw [padLeft, List.length_append, List.length_replicate]
  omega

/-- Digits of one length are ordered as the numbers are. -/
theorem lt_of_digitsValue_lt {s t : List Char} (hs : ∀ c ∈ s, isDigit c = true) (ht : ∀ c ∈ t, isDigit c = true)
    (hlength : s.length = t.length) (h : digitsValue s < digitsValue t) : s < t := by
  have hcons (c : Char) (s : List Char) : digitsValue (c :: s) = (c.toNat - 48) * 10 ^ s.length + digitsValue s :=
    (digitsValue_append [c] s).trans (by rw [digitsValue, List.foldl_cons]; simp)
  induction s generalizing t with
  | nil =>
      cases List.eq_nil_of_length_eq_zero hlength.symm
      exact absurd h (Nat.lt_irrefl _)
  | cons c s ih =>
      cases t with
      | nil => cases hlength
      | cons d t =>
          rw [List.forall_mem_cons, isDigit_eq_true_iff] at hs ht
          have hlength' : s.length = t.length := Nat.succ.inj hlength
          have hlt := digitsValue_lt ht.2
          rw [hcons, hcons, hlength'] at h
          rw [List.cons_lt_cons_iff]
          rcases Nat.lt_trichotomy c.toNat d.toNat with hcd | hcd | hcd
          · exact .inl hcd
          · cases Char.toNat_inj.mp hcd
            exact .inr ⟨rfl, ih hs.2 ht.2 hlength' (Nat.lt_of_add_lt_add_left h)⟩
          · have hle := Nat.mul_le_mul_right (10 ^ t.length) (show d.toNat - 48 + 1 ≤ c.toNat - 48 by omega)
            rw [Nat.add_mul, Nat.one_mul] at hle
            omega

theorem span_isDigit_append {s rest : List Char} (hs : ∀ c ∈ s, isDigit c = true)
    (hrest : ∀ c ∈ rest.head?, isDigit c = false) : (s ++ rest).span isDigit = (s, rest) := by
  have hstop : rest.takeWhile isDigit = [] ∧ rest.dropWhile isDigit = rest := by
    cases rest with
    | nil => exact ⟨rfl, rfl⟩
    | cons d rest =>
        have hd : ¬ isDigit d = true := by rw [hrest d rfl]; exact Bool.false_ne_true
        exact ⟨List.takeWhile_cons_of_neg hd, List.dropWhile_cons_of_neg hd⟩
  rw [List.span_eq_takeWhile_dropWhile, List.takeWhile_append_of_pos hs, List.dropWhile_append_of_pos hs, hstop.1,
    hstop.2, List.append_nil]

theorem not_mem_of_isDigit {s : List Char} {c : Char} (hc : isDigit c = false) (hs : ∀ d ∈ s, isDigit d = true) :
    c ∉ s := by
  intro hmem
  rw [hs c hmem] at hc
  cases hc

theorem toList_toString (n : Int) :
    (toString n).toList = (if n < 0 then ['-'] else []) ++ decimalDigits n.natAbs := by
  cases n with
  | ofNat n =>
      change (Nat.repr n).toList = _
      rw [Nat.toList_repr, Int.ofNat_eq_natCast, if_neg (Int.not_lt.mpr (Int.natCast_nonneg n))]
      rfl
  | negSucc n =>
      change ("-" ++ Nat.repr (n + 1)).toList = _
      rw [String.toList_append, Nat.toList_repr, if_pos (Int.negSucc_lt_zero n)]
      rfl

theorem natAbs_withSign (negative : Bool) (n : Nat) : (withSign negative n).natAbs = n := by
  rw [withSign]
  split <;> omega

theorem withSign_natAbs (n : Int) : withSign (n < 0) n.natAbs = n := by
  rw [withSign]
  by_cases hneg : n < 0
  · rw [if_pos (decide_eq_true hneg)]
    omega
  · rw [if_neg (by simpa using hneg)]
    omega

theorem readSign_append {s : List Char} (hne : s ≠ []) (hs : ∀ c ∈ s, isDigit c = true) (negative : Bool)
    (rest : List Char) : readSign ((if negative then ['-'] else []) ++ (s ++ rest)) = (negative, s ++ rest) := by
  cases negative with
  | true => rfl
  | false =>
      obtain ⟨c, s, rfl⟩ := List.exists_cons_of_ne_nil hne
      have hc := hs c List.mem_cons_self
      rw [if_neg (by decide), List.nil_append, List.cons_append, readSign]
      · intro _ h
        cases h
        cases hc
      · intro _ h
        cases h
        cases hc

end Phrasebook
