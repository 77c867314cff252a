import Mathlib.Data.List.DropRight
import Phrasebook.Text.Blank

namespace Phrasebook.Text

instance decidableAllChars {p : Char → Prop} [DecidablePred p] (s : List Char) : Decidable (∀ c ∈ s, p c) :=
  List.decidableBAll p s

instance decidableSomeChar {p : Char → Prop} [DecidablePred p] (s : List Char) : Decidable (∃ c ∈ s, p c) :=
  List.decidableBEx p s

instance decidableAnyChar {p : Char → Prop} [DecidablePred p] (c : Option Char) : Decidable (∀ d ∈ c, p d) :=
  c.decidableForallMem

theorem trimEnd_eq_rdropWhile (s : List Char) : trimEnd s = s.rdropWhile isBlank := rfl

theorem head?_trimStart_not_blank (s : List Char) : ∀ c ∈ (trimStart s).head?, isBlank c = false := by
  intro c hc
  have := List.head?_dropWhile_not isBlank s
  rw [← trimStart, Option.mem_def.mp hc] at this
  exact this

theorem trimStart_of_head? {s : List Char} (h : ∀ c ∈ s.head?, isBlank c = false) :
    trimStart s = s := by
  cases s with
  | nil => rfl
  | cons c s => exact List.dropWhile_cons_of_neg (by rw [h c rfl]; exact Bool.false_ne_true)

theorem trimStart_idem (s : List Char) : trimStart (trimStart s) = trimStart s :=
  trimStart_of_head? (head?_trimStart_not_blank s)

theorem trim_trimStart (s : List Char) : trim (trimStart s) = trim s := by
  rw [trim, trimStart_idem, trim]

theorem trimStart_blanks_append {w : List Char} (hw : ∀ c ∈ w, isBlank c = true) (s : List Char) :
    trimStart (w ++ s) = trimStart s :=
  List.dropWhile_append_of_pos hw

theorem blanks_append_trimStart (s : List Char) : s.takeWhile isBlank ++ trimStart s = s :=
  List.takeWhile_append_dropWhile

theorem trimEnd_of_getLast? {s : List Char} (h : ∀ c ∈ s.getLast?, isBlank c = false) : trimEnd s = s := by
  have hreverse : trimStart s.reverse = s.reverse := trimStart_of_head? (by rwa [List.head?_reverse])
  rw [trimEnd, ← trimStart, hreverse, List.reverse_reverse]

theorem trimEnd_append_blanks {w : List Char} (hw : ∀ c ∈ w, isBlank c = true) (s : List Char) :
    trimEnd (s ++ w) = trimEnd s := by
  have hreverse : trimStart (w.reverse ++ s.reverse) = trimStart s.reverse :=
    trimStart_blanks_append (fun c hc => hw c (List.mem_reverse.mp hc)) _
  rw [trimEnd, trimEnd, List.reverse_append, ← trimStart, hreverse, trimStart]

theorem head?_trim_not_blank (s : List Char) : ∀ c ∈ (trim s).head?, isBlank c = false := by
  intro c hc
  apply head?_trimStart_not_blank s
  obtain ⟨t, ht⟩ := List.rdropWhile_prefix (p := isBlank) (l := trimStart s)
  obtain ⟨u, hu⟩ := List.head?_eq_some_iff.mp hc
  rw [trim, trimEnd_eq_rdropWhile] at hu
  rw [← ht, hu]
  rfl

theorem getLast?_trim_not_blank (s : List Char) : ∀ c ∈ (trim s).getLast?, isBlank c = false := by
  rw [trim, trimEnd, List.getLast?_reverse]
  exact head?_trimStart_not_blank (trimStart s).reverse

theorem trim_idem (s : List Char) : trim (trim s) = trim s := by
  rw [trim, trimStart_of_head? (head?_trim_not_blank s), trimEnd_of_getLast? (getLast?_trim_not_blank s)]

theorem trimmed_idem (s : String) : trimmed (trimmed s) = trimmed s := by
  rw [trimmed, trimmed, String.toList_ofList, trim_idem]

theorem trimStart_subset (s : List Char) : trimStart s ⊆ s :=
  (List.dropWhile_suffix isBlank).subset

theorem trimEnd_subset (s : List Char) : trimEnd s ⊆ s := by
  rw [trimEnd_eq_rdropWhile]
  exact (List.rdropWhile_prefix isBlank s).subset

theorem trim_subset (s : List Char) : trim s ⊆ s :=
  List.Subset.trans (trimEnd_subset _) (trimStart_subset s)

theorem toList_trimmed_subset (s : String) : (trimmed s).toList ⊆ s.toList := by
  rw [trimmed, String.toList_ofList]
  exact trim_subset s.toList

theorem mem_trim {c : Char} {s : List Char} (hc : isBlank c = false) (h : c ∈ s) : c ∈ trim s := by
  have hne : ¬ isBlank c = true := by rw [hc]; exact Bool.false_ne_true
  have hdrop {l : List Char} (h : c ∈ l) : c ∈ l.dropWhile isBlank := by
    rw [← List.takeWhile_append_dropWhile (p := isBlank) (l := l), List.mem_append] at h
    exact h.resolve_left fun hm => hne (List.mem_takeWhile_imp hm)
  exact List.mem_reverse.mpr (hdrop (List.mem_reverse.mpr (hdrop h)))

theorem trim_eq_nil_iff {s : List Char} : trim s = [] ↔ ∀ c ∈ s, isBlank c = true := by
  constructor
  · intro h c hc
    by_contra hblank
    have hmem := mem_trim (Bool.not_eq_true _ ▸ hblank) hc
    rw [h] at hmem
    cases hmem
  · intro h
    have hstart : trimStart s = [] := List.dropWhile_eq_nil_iff.mpr h
    rw [trim, hstart]
    rfl

end Phrasebook.Text
