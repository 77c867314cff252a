import Phrasebook.Proofs.Text.Blank
import Phrasebook.Text.Pieces

namespace Phrasebook.Text

def firstWord (s : List Char) : List Char :=
  s.takeWhile fun c => !isBlank c

def afterFirst (s : List Char) : List Char :=
  s.dropWhile fun c => !isBlank c

def laterWords : List Char → List (List Char)
  | [] => []
  | c :: s => if isBlank c then firstWord s :: laterWords s else laterWords s

/-- What stands between blanks; the word between two blanks in a row is empty. -/
def words (s : List Char) : List (List Char) :=
  firstWord s :: laterWords s

/-- A text whose first and last characters are there and not blank. -/
structure IsTrimmed (s : List Char) : Prop where
  ne_nil : s ≠ []
  head : ∀ c ∈ s.head?, isBlank c = false
  last : ∀ c ∈ s.getLast?, isBlank c = false

structure IsGap (w : List Char) : Prop where
  ne_nil : w ≠ []
  blank : ∀ c ∈ w, isBlank c = true

variable {s t w rest : List Char} {b c : Char}

theorem IsGap.head_append (h : IsGap w) (s : List Char) : ∀ c ∈ (w ++ s).head?, isBlank c = true := by
  obtain ⟨b, w, rfl⟩ := List.exists_cons_of_ne_nil h.ne_nil
  exact fun c hc => h.blank c (Option.some.inj hc ▸ List.mem_cons_self)

theorem isGap_blank : IsGap [' '] :=
  ⟨List.cons_ne_nil _ _, fun c hc => by rw [List.mem_singleton.mp hc]; rfl⟩

theorem IsTrimmed.trim_eq (h : IsTrimmed s) : trim s = s := by
  rw [trim, trimStart_of_head? h.head, trimEnd_of_getLast? h.last]

theorem isTrimmed_trim (h : trim s ≠ []) : IsTrimmed (trim s) :=
  ⟨h, head?_trim_not_blank s, getLast?_trim_not_blank s⟩

theorem IsTrimmed.append (hs : IsTrimmed s) (ht : IsTrimmed t) (middle : List Char) :
    IsTrimmed (s ++ middle ++ t) := by
  refine ⟨List.append_ne_nil_of_right_ne_nil _ ht.ne_nil, ?_, ?_⟩
  · obtain ⟨c, s, rfl⟩ := List.exists_cons_of_ne_nil hs.ne_nil
    exact hs.head
  · rw [List.getLast?_append_of_ne_nil _ ht.ne_nil]
    exact ht.last

theorem isTrimmed_singleton (hc : isBlank c = false) : IsTrimmed [c] := by
  refine ⟨List.cons_ne_nil c [], ?_, ?_⟩
  all_goals
    rintro _ ⟨⟩
    exact hc

theorem exists_blanks_trim (s : List Char) :
    ∃ w w', (∀ c ∈ w, isBlank c = true) ∧ (∀ c ∈ w', isBlank c = true) ∧ s = w ++ trim s ++ w' := by
  refine ⟨s.takeWhile isBlank, (trimStart s).rtakeWhile isBlank, fun c => List.mem_takeWhile_imp,
    fun c => List.mem_rtakeWhile_imp, ?_⟩
  rw [List.append_assoc, trim, trimEnd_eq_rdropWhile, List.rdropWhile_append_rtakeWhile,
    blanks_append_trimStart]

theorem trim_blanks_append {w' : List Char} (hw : ∀ c ∈ w, isBlank c = true) (s : List Char)
    (hw' : ∀ c ∈ w', isBlank c = true) : trim (w ++ s ++ w') = trim s := by
  rw [trim, trim, List.append_assoc, trimStart_blanks_append hw, trimStart, List.dropWhile_append]
  split
  next hempty =>
    have hblank : w'.dropWhile isBlank = [] := List.dropWhile_eq_nil_iff.mpr hw'
    rw [hblank, trimStart, List.isEmpty_iff.mp hempty]
  next => exact trimEnd_append_blanks hw' _

theorem toLower_of_isBlank (h : isBlank c = true) : c.toLower = c := by
  have hcapitals : ∀ n ≤ 90, 65 ≤ n → isBlank (Char.ofNat n) = false := by decide
  refine dif_neg fun ⟨hlow, hhigh⟩ => ?_
  have hblank := hcapitals c.toNat hhigh hlow
  rw [Char.ofNat_toNat, h] at hblank
  cases hblank

theorem firstWord_blank (h : isBlank c = true) (s : List Char) : firstWord (c :: s) = [] :=
  List.takeWhile_cons_of_neg (by rw [h]; exact Bool.false_ne_true)

theorem firstWord_cons (h : isBlank c = false) (s : List Char) : firstWord (c :: s) = c :: firstWord s :=
  List.takeWhile_cons_of_pos (by rw [h]; rfl)

theorem afterFirst_blank (h : isBlank c = true) (s : List Char) : afterFirst (c :: s) = c :: s :=
  List.dropWhile_cons_of_neg (by rw [h]; exact Bool.false_ne_true)

theorem afterFirst_cons (h : isBlank c = false) (s : List Char) : afterFirst (c :: s) = afterFirst s :=
  List.dropWhile_cons_of_pos (by rw [h]; rfl)

theorem firstWord_append (s : List Char) (hrest : ∀ c ∈ rest.head?, isBlank c = true) :
    firstWord (s ++ rest) = firstWord s := by
  induction s with
  | nil =>
      cases rest with
      | nil => rfl
      | cons c rest => exact firstWord_blank (hrest c rfl) rest
  | cons c s ih =>
      rw [List.cons_append]
      cases hc : isBlank c with
      | true => rw [firstWord_blank hc, firstWord_blank hc]
      | false => rw [firstWord_cons hc, firstWord_cons hc, ih]

theorem afterFirst_append (hs : ∀ c ∈ s, isBlank c = false) (hrest : ∀ c ∈ rest.head?, isBlank c = true) :
    afterFirst (s ++ rest) = rest := by
  rw [afterFirst, List.dropWhile_append_of_pos fun c hc => by rw [hs c hc]; rfl]
  cases rest with
  | nil => rfl
  | cons c rest => exact afterFirst_blank (hrest c rfl) rest

theorem firstWord_eq_self (hs : ∀ c ∈ s, isBlank c = false) : firstWord s = s :=
  List.takeWhile_eq_self_iff.mpr fun c hc => by rw [hs c hc]; rfl

theorem afterFirst_eq_nil_iff : afterFirst s = [] ↔ ∀ c ∈ s, isBlank c = false := by
  simp [afterFirst, List.dropWhile_eq_nil_iff]

theorem trimStart_ne_nil (hs : s ≠ []) (hlast : ∀ c ∈ s.getLast?, isBlank c = false) : trimStart s ≠ [] := by
  intro h
  have hmem := List.getLast_mem hs
  have hblank := List.dropWhile_eq_nil_iff.mp h _ hmem
  rw [hlast _ (List.getLast?_eq_some_getLast hs)] at hblank
  cases hblank

theorem trimStart_append (h : trimStart s ≠ []) (t : List Char) : trimStart (s ++ t) = trimStart s ++ t := by
  rw [trimStart, List.dropWhile_append, if_neg]
  · rfl
  · rwa [List.isEmpty_iff]

theorem getLast?_not_blank_tail (h : ∀ d ∈ (c :: s).getLast?, isBlank d = false) :
    ∀ d ∈ s.getLast?, isBlank d = false := by
  cases s with
  | nil => nofun
  | cons d s => rwa [List.getLast?_cons_of_ne_nil (List.cons_ne_nil d s)] at h

theorem tail_ne_nil (hc : isBlank c = true) (h : ∀ d ∈ (c :: s).getLast?, isBlank d = false) : s ≠ [] := by
  rintro rfl
  rw [h c rfl] at hc
  cases hc

theorem laterWords_subset_cons (c : Char) (s : List Char) : laterWords s ⊆ laterWords (c :: s) := by
  rw [laterWords]
  split
  · exact List.subset_cons_self _ _
  · exact List.Subset.refl _

theorem subset_of_mem_laterWords {word : List Char} (h : word ∈ laterWords s) : word ⊆ s := by
  induction s with
  | nil => cases h
  | cons c s ih =>
      rw [laterWords] at h
      split at h
      · rcases List.mem_cons.mp h with rfl | h
        · exact fun d hd => List.mem_cons_of_mem c (List.takeWhile_subset _ hd)
        · exact List.subset_cons_of_subset c (ih h)
      · exact List.subset_cons_of_subset c (ih h)

theorem trimStart_append_eq_nil_iff (hw : ∀ c ∈ w, isBlank c = true) (s : List Char) :
    trimStart (s ++ w) = [] ↔ trimStart s = [] := by
  simp only [trimStart, List.dropWhile_eq_nil_iff, List.forall_mem_append, and_iff_left hw]

theorem append_ne_of_blank (start : List Char) (hw : ∀ c ∈ w, isBlank c = true)
    (hstart : ∀ c ∈ start, isBlank c = false) (h : ∀ t, s = start ++ t → False) (t : List Char) :
    s ++ w = start ++ t → False := by
  intro heq
  rcases List.append_eq_append_iff.mp heq with ⟨u, rfl, rfl⟩ | ⟨u, rfl, -⟩
  · cases u with
    | nil => exact h [] (by simp)
    | cons c u =>
        have hc := hstart c (by simp)
        rw [hw c List.mem_cons_self] at hc
        cases hc
  · exact h u rfl

theorem firstWord_trimStart_mem_laterWords (hb : isBlank b = true) (hs : s ≠ [])
    (hlast : ∀ c ∈ s.getLast?, isBlank c = false) (hrest : ∀ c ∈ rest.head?, isBlank c = true) :
    firstWord (trimStart (s ++ rest)) ∈ laterWords (b :: s) := by
  induction s generalizing b with
  | nil => exact (hs rfl).elim
  | cons c s ih =>
      rw [laterWords, if_pos hb]
      by_cases hc : isBlank c = true
      · have hmem := ih hc (tail_ne_nil hc hlast) (getLast?_not_blank_tail hlast)
        rw [List.cons_append, trimStart, List.dropWhile_cons_of_pos hc]
        exact List.mem_cons_of_mem _ hmem
      · have htrim : trimStart (c :: s ++ rest) = c :: s ++ rest := List.dropWhile_cons_of_neg hc
        rw [htrim, firstWord_append _ hrest]
        exact List.mem_cons_self

end Phrasebook.Text
