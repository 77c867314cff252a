import Phrasebook.Format.Letters
import Phrasebook.Proofs.Text.Blank
import Phrasebook.Proofs.Text.Pieces

namespace Phrasebook.Text

def isAccentMark (c : Char) : Bool :=
  0x300 ≤ c.toNat && c.toNat ≤ 0x36f

/-- What a character may become in another case: below the letters it stays what it is, letters become
letters, and what is no accent leaves something that is none. -/
structure Recased (c : Char) (l : List Char) : Prop where
  same : c.toNat < 64 → l = [c]
  letters : 64 ≤ c.toNat → ∀ d ∈ l, 64 ≤ d.toNat
  stands : isAccentMark c = false → ∃ d ∈ l, isAccentMark d = false

inductive Recasing : List Char → List Char → Prop
  | nil : Recasing [] []
  | cons {c : Char} {l s t : List Char} (h : Recased c l) (hs : Recasing s t) : Recasing (c :: s) (l ++ t)

theorem Recasing.append {s s' t t' : List Char} (hs : Recasing s s') (ht : Recasing t t') :
    Recasing (s ++ t) (s' ++ t') := by
  induction hs with
  | nil => exact ht
  | cons h _ ih =>
      rw [List.append_assoc]
      exact .cons h ih

theorem isAccentMark_of_lt {c : Char} (h : c.toNat < 0x300) : isAccentMark c = false := by
  rw [isAccentMark, Bool.and_eq_false_iff, decide_eq_false_iff_not]
  omega

theorem le_of_isAccentMark {c : Char} (h : isAccentMark c = true) : 0x300 ≤ c.toNat := by
  rw [isAccentMark, Bool.and_eq_true, decide_eq_true_iff] at h
  exact h.1

theorem recased_of_le {c : Char} {l : List Char} (hc : 64 ≤ c.toNat) (hletters : ∀ d ∈ l, 64 ≤ d.toNat)
    (hstands : isAccentMark c = false → ∃ d ∈ l, isAccentMark d = false) : Recased c l :=
  ⟨fun h => by omega, fun _ => hletters, hstands⟩

theorem Recased.refl (c : Char) : Recased c [c] :=
  ⟨fun _ => rfl, fun h => List.forall_mem_singleton.mpr h, fun h => ⟨c, List.mem_singleton_self c, h⟩⟩

theorem recased_nil {c : Char} (h : isAccentMark c = true) : Recased c [] := by
  have := le_of_isAccentMark h
  refine recased_of_le (by omega) (by rintro d ⟨⟩) fun hno => ?_
  rw [h] at hno
  cases hno

theorem Recased.append {c : Char} {l m : List Char} (h : Recased c l) (hc : 64 ≤ c.toNat)
    (hm : ∀ d ∈ m, 64 ≤ d.toNat) : Recased c (l ++ m) := by
  refine recased_of_le hc (List.forall_mem_append.mpr ⟨h.letters hc, hm⟩) fun hno => ?_
  obtain ⟨d, hd, hstands⟩ := h.stands hno
  exact ⟨d, List.mem_append_left m hd, hstands⟩

theorem recased_ite {c : Char} {p : Prop} [Decidable p] {l m : List Char} (hl : Recased c l) (hm : Recased c m) :
    Recased c (if p then l else m) := by
  split
  · exact hl
  · exact hm

theorem recased_ascii {c : Char} (hc : c.toNat < 128) : Recased c [c.toLower] ∧ Recased c [c.toUpper] := by
  have hall : ∀ n < 128, ∀ d ∈ [(Char.ofNat n).toLower, (Char.ofNat n).toUpper],
      (n < 64 → d = Char.ofNat n) ∧ (64 ≤ n → 64 ≤ d.toNat) ∧ d.toNat < 0x300 := by
    decide
  have hone {d : Char} (hd : d ∈ [c.toLower, c.toUpper]) : Recased c [d] := by
    obtain ⟨hsame, hletters, hstands⟩ := hall c.toNat hc d (by rwa [Char.ofNat_toNat])
    rw [Char.ofNat_toNat] at hsame
    exact ⟨fun h => by rw [hsame h], fun h => List.forall_mem_singleton.mpr (hletters h),
      fun _ => ⟨d, List.mem_singleton_self d, isAccentMark_of_lt hstands⟩⟩
  exact ⟨hone List.mem_cons_self, hone (List.mem_cons_of_mem _ List.mem_cons_self)⟩

/-- Numbers of characters that are letters or above, and no accents. -/
def IsLetterRange (first last : Int) : Prop :=
  64 ≤ first ∧ (last < 0x300 ∨ 0x36f < first ∧ last < 0xd800 ∨ 0xdfff < first ∧ last < 0x110000)

instance (first last : Int) : Decidable (IsLetterRange first last) :=
  inferInstanceAs (Decidable (_ ∧ _))

theorem toNat_ofNat {n : Nat} (h : n.isValidChar) : (Char.ofNat n).toNat = n := by
  rw [Char.ofNat, dif_pos h]
  rfl

theorem IsLetterRange.recased {first last : Int} (h : IsLetterRange first last) {n : Nat} (hfirst : first ≤ n)
    (hlast : n ≤ last) {c : Char} (hc : 64 ≤ c.toNat) : Recased c [Char.ofNat n] := by
  obtain ⟨hle, hrange⟩ := h
  have hvalid : n.isValidChar := by
    unfold Nat.isValidChar
    omega
  have hletter : 64 ≤ (Char.ofNat n).toNat := by
    rw [toNat_ofNat hvalid]
    omega
  have hstands : isAccentMark (Char.ofNat n) = false := by
    rw [isAccentMark, toNat_ofNat hvalid, Bool.and_eq_false_iff, decide_eq_false_iff_not, decide_eq_false_iff_not]
    omega
  exact recased_of_le hc (List.forall_mem_singleton.mpr hletter) fun _ => ⟨_, List.mem_singleton_self _, hstands⟩

def LeadsToLetters (table : List (Nat × Nat × Nat × Int)) : Prop :=
  ∀ row ∈ table, row.2.1 < 128 ∨ IsLetterRange (row.1 + row.2.2.2) (row.2.1 + row.2.2.2)

instance (table : List (Nat × Nat × Nat × Int)) : Decidable (LeadsToLetters table) :=
  inferInstanceAs (Decidable (∀ row ∈ table, _))

theorem lower_leadsToLetters : LeadsToLetters CaseTables.lower := by
  decide +kernel

theorem upper_leadsToLetters : LeadsToLetters CaseTables.upper := by
  decide +kernel

theorem recased_shifted {table : List (Nat × Nat × Nat × Int)} (ht : LeadsToLetters table) {c : Char}
    (hc : 128 ≤ c.toNat) : Recased c [shifted table c] := by
  unfold shifted
  split
  next row first last step distance hfind =>
    have hrow := List.find?_some hfind
    simp only [Bool.and_eq_true, decide_eq_true_eq] at hrow
    rcases ht _ (List.mem_of_find?_eq_some hfind) with h | h
    · dsimp only at h
      omega
    · have := h.1
      dsimp only at this
      exact h.recased (by dsimp only; omega) (by dsimp only; omega) (by omega)
  next => exact .refl c

namespace Casing

theorem isAccentMark_of_isLostMark {c : Char} (h : isLostMark c = true) : isAccentMark c = true := by
  simp only [isLostMark, isAccent, isDialytika, Bool.or_eq_true, beq_iff_eq, decide_eq_true_eq] at h
  rcases h with (h | h | h) | h
  · revert c
    decide
  · rw [h]
    rfl
  · rw [h]
    rfl
  · revert c
    decide

theorem recased_lowerCommon (c : Char) (before after : List Char) : Recased c (lowerCommon before c after) := by
  unfold lowerCommon
  split
  next hc => exact (recased_ascii hc).1
  next hc =>
    have hletter : 64 ≤ c.toNat := by omega
    split
    · exact recased_of_le hletter (by decide) fun _ => by decide
    · split
      · split
        · exact recased_of_le hletter (by decide) fun _ => by decide
        · exact recased_of_le hletter (by decide) fun _ => by decide
      · exact recased_shifted lower_leadsToLetters (by omega)

theorem recased_lowerAt (casing : Casing) (c : Char) (before after : List Char) :
    Recased c (casing.lowerAt before c after) := by
  have hcommon := recased_lowerCommon c before after
  cases casing with
  | common | greek | armenian => exact hcommon
  | turkish =>
      unfold lowerAt lowerTurkish
      dsimp only
      split
      next h =>
        subst h
        exact recased_of_le (by decide) (by decide) fun _ => by decide
      · split
        next h =>
          rw [h.1]
          exact recased_nil rfl
        · split
          next h =>
            rw [h.1]
            exact recased_of_le (by decide) (by decide) fun _ => by decide
          · exact hcommon
  | lithuanian =>
      unfold lowerAt lowerLithuanian
      dsimp only
      split
      · exact recased_of_le (by decide) (by decide) fun _ => by decide
      · exact recased_of_le (by decide) (by decide) fun _ => by decide
      · exact recased_of_le (by decide) (by decide) fun _ => by decide
      · split
        next h =>
          refine hcommon.append ?_ (by decide)
          rcases h.1 with rfl | rfl | rfl <;> decide
        · exact hcommon

theorem recased_upperCommon (c : Char) : Recased c (upperCommon c) := by
  have htable : ∀ row ∈ CaseTables.longUpper, (∀ code ∈ row.2, 64 ≤ code ∧ code < 0xd800) ∧
      ∃ code ∈ row.2, IsLetterRange code code := by decide +kernel
  unfold upperCommon
  split
  next hc => exact (recased_ascii hc).2
  next hc =>
    split
    next code codes hfind =>
      obtain ⟨hcodes, letter, hmem, hletter⟩ := htable _ (List.mem_of_find?_eq_some hfind)
      have hone := hletter.recased (Int.le_refl _) (Int.le_refl _) (c := c) (by omega)
      refine recased_of_le (by omega) ?_ fun hstands => ?_
      · intro d hd
        obtain ⟨n, hn, rfl⟩ := List.mem_map.mp hd
        obtain ⟨hle, hlt⟩ := hcodes n hn
        rwa [toNat_ofNat (.inl hlt)]
      · obtain ⟨d, hd, hd'⟩ := hone.stands hstands
        rw [List.mem_singleton] at hd
        subst hd
        exact ⟨_, List.mem_map_of_mem hmem, hd'⟩
    next => exact recased_shifted upper_leadsToLetters (by omega)

theorem recased_greekLetter {c base : Char} {marks : GreekMarks} (h : greekLetter? c = some (base, marks)) :
    64 ≤ c.toNat ∧ Recased c [base] := by
  have htable : ∀ row ∈ CaseTables.greek, 64 ≤ row.1 ∧ IsLetterRange row.2.1 row.2.1 := by decide +kernel
  obtain ⟨row, hfind, hrow⟩ := Option.map_eq_some_iff.mp h
  cases hrow
  obtain ⟨hle, hletter⟩ := htable row (List.mem_of_find?_eq_some hfind)
  have hcode := List.find?_some hfind
  simp only [beq_iff_eq] at hcode
  have hc : 64 ≤ c.toNat := by omega
  exact ⟨hc, hletter.recased (Int.le_refl _) (Int.le_refl _) hc⟩

theorem recased_upperGreekVowel {c base : Char} (hc : 64 ≤ c.toNat) (h : Recased c [base]) (own : GreekMarks)
    (before after : List Char) : Recased c (upperGreekVowel before base own after) := by
  have hletter {d : Char} (hd : IsLetterRange d.toNat d.toNat) : Recased c [d] := by
    have := hd.recased (Int.le_refl _) (Int.le_refl _) hc
    rwa [Char.ofNat_toNat] at this
  have hjoined : Recased c [if base = 'Ι' then 'Ϊ' else 'Ϋ'] := by
    split
    · exact hletter (by decide)
    · exact hletter (by decide)
  have hadded {p : Prop} [Decidable p] {d : Char} (hd : 64 ≤ d.toNat) :
      ∀ d' ∈ if p then [d] else [], 64 ≤ d'.toNat := by
    split
    · exact List.forall_mem_singleton.mpr hd
    · rintro d' ⟨⟩
  have haccented : Recased c ['Η', '\u0301'] := recased_of_le hc (by decide) fun _ => by decide
  unfold upperGreekVowel
  exact ((recased_ite (hletter (by decide)) (recased_ite haccented (recased_ite hjoined h))).append hc
    (hadded (by decide))).append hc (hadded (by decide))

theorem recased_upperAt (casing : Casing) (c : Char) (before after : List Char) :
    Recased c (casing.upperAt before c after) := by
  have hcommon := recased_upperCommon c
  cases casing with
  | common => exact hcommon
  | turkish | armenian =>
      unfold upperAt
      dsimp only
      split
      next h =>
        subst h
        exact recased_of_le (by decide) (by decide) fun _ => by decide
      · exact hcommon
  | lithuanian =>
      unfold upperAt
      dsimp only
      split
      next h =>
        rw [h.1]
        exact recased_nil rfl
      · exact hcommon
  | greek =>
      unfold upperAt upperGreek
      dsimp only
      split
      next base own hletter =>
        obtain ⟨hc, hbase⟩ := recased_greekLetter hletter
        split
        · exact recased_of_le hc (by decide) fun _ => by decide
        · exact recased_upperGreekVowel hc hbase own before after
      next =>
        split
        next h => exact recased_nil (isAccentMark_of_isLostMark h.1)
        · exact hcommon

theorem recasing_mapInContext {f : List Char → Char → List Char → List Char}
    (hf : ∀ before c after, Recased c (f before c after)) (before s : List Char) :
    Recasing s (mapInContext f before s) := by
  induction s generalizing before with
  | nil => exact .nil
  | cons c s ih => exact .cons (hf before c s) (ih (c :: before))

end Casing

theorem recasing_lower (casing : Casing) (s : List Char) : Recasing s (lower casing s) :=
  Casing.recasing_mapInContext (fun before c after => casing.recased_lowerAt c before after) [] s

theorem recasing_upper (casing : Casing) (s : List Char) : Recasing s (upper casing s) :=
  Casing.recasing_mapInContext (fun before c after => casing.recased_upperAt c before after) [] s

theorem lowered_eq_self {s : String} (h : ∀ c ∈ s.toList, c.toNat < 64) : lowered s = s := by
  have hstays {l m : List Char} (hrecasing : Recasing l m) (hl : ∀ c ∈ l, c.toNat < 64) : m = l := by
    induction hrecasing with
    | nil => rfl
    | cons hc _ ih =>
        rw [List.forall_mem_cons] at hl
        rw [hc.same hl.1, ih hl.2]
        rfl
  rw [lowered, hstays (recasing_lower .common s.toList) h, String.ofList_toList]

theorem lowered_toString (n : Nat) : lowered (toString n) = toString n := by
  refine lowered_eq_self fun c hc => ?_
  rw [Nat.toString_eq_repr, Nat.toList_repr] at hc
  have hdigit := Nat.isDigit_of_mem_toDigits (by decide) (by decide) hc
  rw [Char.isDigit, Bool.and_eq_true, decide_eq_true_iff, decide_eq_true_iff] at hdigit
  exact Nat.lt_of_le_of_lt hdigit.2 (by decide)

theorem clusterTail_append (previous : Char) (pictures : Bool) (s : List Char) :
    (clusterTail previous pictures s).1 ++ (clusterTail previous pictures s).2 = s := by
  fun_induction clusterTail previous pictures s <;> simp_all

theorem firstCluster_append (s : List Char) : (firstCluster s).1 ++ (firstCluster s).2 = s := by
  cases s with
  | nil => rfl
  | cons c s =>
      rw [firstCluster]
      split
      · rfl
      · exact congrArg (c :: ·) (clusterTail_append c _ s)

theorem recasing_capitalized (casing : Casing) (s : List Char) : Recasing s (capitalized casing s) := by
  conv => arg 1; rw [← firstCluster_append s]
  exact (recasing_upper casing _).append (recasing_lower casing _)

theorem recasing_flatten {f : List Char → List Char} (hf : ∀ s, Recasing s (f s)) (pieces : List (List Char)) :
    Recasing (pieces.intersperse [' ']).flatten ((pieces.map f).intersperse [' ']).flatten := by
  induction pieces with
  | nil => exact .nil
  | cons piece pieces ih =>
      cases pieces with
      | nil => exact (hf piece).append .nil
      | cons next pieces => exact (hf piece).append (.cons (.refl ' ') ih)

end Phrasebook.Text

namespace Phrasebook

open Text

theorem LetterCase.recasing_capitalizeWords (casing : Casing) (s : List Char) :
    Recasing s (capitalizeWords casing s) := by
  conv => arg 1; rw [← flatten_splitOn ' ' s]
  exact recasing_flatten (recasing_capitalized casing) (splitOn ' ' s)

theorem LetterCase.recasing_apply (mode : LetterCase) (language s : String) :
    Recasing s.toList (mode.apply language s).toList := by
  unfold LetterCase.apply
  rw [String.toList_ofList]
  cases mode with
  | lower => exact recasing_lower _ _
  | upper => exact recasing_upper _ _
  | capitalizeFirst => exact recasing_capitalized _ _
  | capitalizeAll => exact recasing_capitalizeWords _ _

end Phrasebook
