import Mathlib.Order.Bounds.Defs
import Phrasebook.Text.Distance

namespace Phrasebook.Text

/-- A character is put in, taken out or replaced, anywhere in a text. -/
inductive Edit : List Char → List Char → Prop
  | insert (before : List Char) (c : Char) (after : List Char) : Edit (before ++ after) (before ++ c :: after)
  | delete (before : List Char) (c : Char) (after : List Char) : Edit (before ++ c :: after) (before ++ after)
  | replace (before : List Char) (c d : Char) (after : List Char) :
    Edit (before ++ c :: after) (before ++ d :: after)

/-- So many edits, one after another, turn one text into the other. -/
inductive Edits : List Char → List Char → Nat → Prop
  | refl (s : List Char) : Edits s s 0
  | step {s t u : List Char} {n : Nat} (h : Edit s t) (hrest : Edits t u n) : Edits s u (n + 1)

/-- Two texts side by side, where at most so many places have different characters or a character beside a gap. -/
inductive Aligned : List Char → List Char → Nat → Prop
  | nil (n : Nat) : Aligned [] [] n
  | same {s t : List Char} {n : Nat} (c : Char) (h : Aligned s t n) : Aligned (c :: s) (c :: t) n
  | other {s t : List Char} {n : Nat} (c d : Char) (h : Aligned s t n) : Aligned (c :: s) (d :: t) (n + 1)
  | left {s t : List Char} {n : Nat} (c : Char) (h : Aligned s t n) : Aligned (c :: s) t (n + 1)
  | right {s t : List Char} {n : Nat} (d : Char) (h : Aligned s t n) : Aligned s (d :: t) (n + 1)

variable {s t u : List Char} {c d : Char} {n : Nat}

namespace Edit

theorem cons (c : Char) (h : Edit s t) : Edit (c :: s) (c :: t) := by
  cases h with
  | insert before d after => exact .insert (c :: before) d after
  | delete before d after => exact .delete (c :: before) d after
  | replace before d e after => exact .replace (c :: before) d e after

theorem reverse (h : Edit s t) : Edit s.reverse t.reverse := by
  cases h with
  | insert before c after =>
      simpa using Edit.insert after.reverse c before.reverse
  | delete before c after =>
      simpa using Edit.delete after.reverse c before.reverse
  | replace before c d after =>
      simpa using Edit.replace after.reverse c d before.reverse

end Edit

namespace Edits

theorem cons (c : Char) (h : Edits s t n) : Edits (c :: s) (c :: t) n := by
  induction h with
  | refl s => exact .refl (c :: s)
  | step h _ ih => exact .step (h.cons c) ih

theorem reverse (h : Edits s t n) : Edits s.reverse t.reverse n := by
  induction h with
  | refl s => exact .refl s.reverse
  | step h _ ih => exact .step h.reverse ih

end Edits

namespace Aligned

theorem refl (s : List Char) : Aligned s s 0 := by
  induction s with
  | nil => exact .nil 0
  | cons c s ih => exact .same c ih

theorem succ (h : Aligned s t n) : Aligned s t (n + 1) := by
  induction h with
  | nil n => exact .nil (n + 1)
  | same c _ ih => exact .same c ih
  | other c d _ ih => exact .other c d ih
  | left c _ ih => exact .left c ih
  | right d _ ih => exact .right d ih

theorem of_cons (h : Aligned (c :: s) t n) : Aligned s t (n + 1) := by
  generalize hu : c :: s = u at h
  -- what stands beside gaps on the right before the place of the edit is gone through first
  induction h with
  | nil => cases hu
  | same _ h =>
      cases hu
      exact .right _ h
  | other _ d h =>
      cases hu
      exact (Aligned.right d h).succ
  | left _ h =>
      cases hu
      exact h.succ.succ
  | right d _ ih => exact .right d (ih hu)

theorem replace_head (h : Aligned (d :: s) t n) (c : Char) : Aligned (c :: s) t (n + 1) := by
  generalize hu : d :: s = u at h
  induction h with
  | nil => cases hu
  | same _ h =>
      cases hu
      exact .other c _ h
  | other _ e h =>
      cases hu
      exact (Aligned.other c e h).succ
  | left _ h =>
      cases hu
      exact (Aligned.left c h).succ
  | right e _ ih => exact .right e (ih hu)

theorem cons_of_cons (hedit : ∀ t n, Aligned u t n → Aligned s t (n + 1)) (h : Aligned (c :: u) t n) :
    Aligned (c :: s) t (n + 1) := by
  generalize hv : c :: u = v at h
  induction h with
  | nil => cases hv
  | same _ h =>
      cases hv
      exact .same c (hedit _ _ h)
  | other _ d h =>
      cases hv
      exact .other c d (hedit _ _ h)
  | left _ h =>
      cases hv
      exact .left c (hedit _ _ h)
  | right d _ ih => exact .right d (ih hv)

theorem of_append (before : List Char) (hedit : ∀ t n, Aligned u t n → Aligned s t (n + 1))
    (h : Aligned (before ++ u) t n) : Aligned (before ++ s) t (n + 1) := by
  induction before generalizing t n with
  | nil => exact hedit t n h
  | cons c before ih => exact h.cons_of_cons fun _ _ => ih

theorem of_edit (hedit : Edit s u) (h : Aligned u t n) : Aligned s t (n + 1) := by
  cases hedit with
  | insert before c after => exact of_append before (fun _ _ => of_cons) h
  | delete before c after => exact of_append before (fun _ _ => .left c) h
  | replace before c d after => exact of_append before (fun _ _ h => h.replace_head c) h

theorem of_edits (h : Edits s t n) : Aligned s t n := by
  induction h with
  | refl s => exact .refl s
  | step h _ ih => exact ih.of_edit h

theorem exists_edits (h : Aligned s t n) : ∃ m ≤ n, Edits s t m := by
  induction h with
  | nil n => exact ⟨0, Nat.zero_le n, .refl []⟩
  | same c _ ih =>
      obtain ⟨m, hm, hedits⟩ := ih
      exact ⟨m, hm, hedits.cons c⟩
  | @other s t n c d _ ih =>
      obtain ⟨m, hm, hedits⟩ := ih
      exact ⟨m + 1, Nat.succ_le_succ hm, .step (.replace [] c d s) (hedits.cons d)⟩
  | @left s t n c _ ih =>
      obtain ⟨m, hm, hedits⟩ := ih
      exact ⟨m + 1, Nat.succ_le_succ hm, .step (.delete [] c s) hedits⟩
  | @right s t n d _ ih =>
      obtain ⟨m, hm, hedits⟩ := ih
      exact ⟨m + 1, Nat.succ_le_succ hm, .step (.insert [] d s) (hedits.cons d)⟩

theorem of_le {m : Nat} (h : Aligned s t m) (hm : m ≤ n) : Aligned s t n := by
  induction hm with
  | refl => exact h
  | step _ ih => exact ih.succ

theorem reverse (h : Aligned s t n) : Aligned s.reverse t.reverse n := by
  obtain ⟨m, hm, hedits⟩ := h.exists_edits
  exact (of_edits hedits.reverse).of_le hm

end Aligned

def Gap (s t : List Char) (k : Nat) : Prop :=
  ∀ n, Aligned s t n ↔ k ≤ n

theorem gap_nil_left (t : List Char) : Gap [] t t.length := by
  intro n
  induction t generalizing n with
  | nil => exact ⟨fun _ => Nat.zero_le n, fun _ => .nil n⟩
  | cons d t ih =>
      constructor
      · rintro (_ | _ | _ | _ | ⟨_, h⟩)
        exact Nat.succ_le_succ ((ih _).mp h)
      · intro h
        obtain ⟨m, rfl⟩ := Nat.exists_eq_add_one_of_ne_zero (Nat.ne_zero_of_lt h)
        exact .right d ((ih m).mpr (Nat.le_of_succ_le_succ h))

theorem gap_nil_right (s : List Char) : Gap s [] s.length := by
  intro n
  induction s generalizing n with
  | nil => exact ⟨fun _ => Nat.zero_le n, fun _ => .nil n⟩
  | cons c s ih =>
      constructor
      · rintro (_ | _ | _ | ⟨_, h⟩ | _)
        exact Nat.succ_le_succ ((ih _).mp h)
      · intro h
        obtain ⟨m, rfl⟩ := Nat.exists_eq_add_one_of_ne_zero (Nat.ne_zero_of_lt h)
        exact .left c ((ih m).mpr (Nat.le_of_succ_le_succ h))

namespace Gap

variable {k up left diagonal : Nat}

theorem unique {l : Nat} (h : Gap s t k) (h' : Gap s t l) : k = l :=
  Nat.le_antisymm ((h l).mp ((h' l).mpr (Nat.le_refl l))) ((h' k).mp ((h k).mpr (Nat.le_refl k)))

theorem reverse (h : Gap s t k) : Gap s.reverse t.reverse k := by
  intro n
  rw [← h n]
  exact ⟨fun h => by simpa using h.reverse, Aligned.reverse⟩

theorem cons (hup : Gap s (d :: t) up) (hleft : Gap (c :: s) t left) (hdiagonal : Gap s t diagonal) :
    Gap (c :: s) (d :: t) (min (min (left + 1) (up + 1)) (if c = d then diagonal else diagonal + 1)) := by
  intro n
  constructor
  · rintro (_ | ⟨_, h⟩ | ⟨_, _, h⟩ | ⟨_, h⟩ | ⟨_, h⟩)
    · have hle := (hdiagonal n).mp h
      rw [if_pos rfl]
      omega
    · have hle := (hdiagonal _).mp h
      split <;> omega
    · have hle := (hup _).mp h
      omega
    · have hle := (hleft _).mp h
      omega
  · intro h
    obtain h | h | h : left + 1 ≤ n ∨ up + 1 ≤ n ∨ (if c = d then diagonal else diagonal + 1) ≤ n := by omega
    · exact (Aligned.right d ((hleft left).mpr (Nat.le_refl left))).of_le h
    · exact (Aligned.left c ((hup up).mpr (Nat.le_refl up))).of_le h
    · have haligned := (hdiagonal diagonal).mpr (Nat.le_refl diagonal)
      split at h
      next heq => exact heq ▸ (Aligned.same c haligned).of_le h
      next => exact (Aligned.other c d haligned).of_le h

end Gap

/-- A row of the edit table: the entries for one text and for the beginnings of a target, of which some characters
have been passed. Both are told from their ends, as the table grows at the ends of the texts. -/
inductive Row (read : List Char) : (passed target : List Char) → List Nat → Prop
  | last {passed : List Char} {k : Nat} (h : Gap read passed k) : Row read passed [] [k]
  | entry {passed target : List Char} {d : Char} {k : Nat} {row : List Nat} (h : Gap read passed k)
    (hrest : Row read (d :: passed) target row) : Row read passed (d :: target) (k :: row)

namespace Row

variable {read passed target : List Char} {row above : List Nat} {left diagonal : Nat}

theorem exists_eq_cons (h : Row read passed target row) : ∃ k rest, row = k :: rest ∧ Gap read passed k := by
  cases h with
  | last h => exact ⟨_, [], rfl, h⟩
  | entry h _ => exact ⟨_, _, rfl, h⟩

theorem first (passed target : List Char) :
    Row [] passed target (List.range' passed.length (target.length + 1)) := by
  induction target generalizing passed with
  | nil => exact .last (gap_nil_left passed)
  | cons d target ih => exact .entry (gap_nil_left passed) (ih (d :: passed))

theorem next (h : Row read passed target (diagonal :: above)) (hleft : Gap (c :: read) passed left) :
    Row (c :: read) passed target (left :: nextRow c left diagonal above target) := by
  induction target generalizing passed left diagonal above with
  | nil =>
      cases h
      exact .last hleft
  | cons d target ih =>
      obtain _ | ⟨hdiagonal, hrest⟩ := h
      obtain ⟨up, above, rfl, hup⟩ := hrest.exists_eq_cons
      exact .entry hleft (ih hrest (hup.cons hleft hdiagonal))

theorem rows (h : Row read [] target row) (source : List Char) :
    Row (source.reverse ++ read) [] target (Text.rows target row source) := by
  induction source generalizing read row with
  | nil => exact h
  | cons c source ih =>
      obtain ⟨first, above, rfl, hfirst⟩ := h.exists_eq_cons
      have hlength : first = read.length := hfirst.unique (gap_nil_right read)
      have hleft : Gap (c :: read) [] (first + 1) := hlength ▸ gap_nil_right (c :: read)
      rw [List.reverse_cons, List.append_assoc]
      exact ih (h.next hleft)

theorem gap_getLastD (h : Row read passed target row) : Gap read (target.reverse ++ passed) (row.getLastD 0) := by
  induction h with
  | last h => exact h
  | @entry passed target d k row _ hrest ih =>
      obtain ⟨l, rest, rfl, -⟩ := hrest.exists_eq_cons
      rw [List.reverse_cons, List.append_assoc]
      exact ih

end Row

theorem gap_distance (s t : List Char) : Gap s t (distance s t) := by
  have hrow : Row s.reverse [] t (rows t (List.range (t.length + 1)) s) := by
    rw [List.range_eq_range']
    simpa using (Row.first [] t).rows s
  have hgap := hrow.gap_getLastD.reverse
  rwa [List.append_nil, List.reverse_reverse, List.reverse_reverse] at hgap

/-- The distance of two texts is the least number of edits that turn the one into the other. -/
theorem distance_isLeast (s t : List Char) : IsLeast {n | Edits s t n} (distance s t) := by
  constructor
  · obtain ⟨m, hm, hedits⟩ := ((gap_distance s t _).mpr (Nat.le_refl _)).exists_edits
    obtain rfl : m = distance s t := Nat.le_antisymm hm ((gap_distance s t m).mp (.of_edits hedits))
    exact hedits
  · intro n hn
    exact (gap_distance s t n).mp (.of_edits hn)

end Phrasebook.Text
