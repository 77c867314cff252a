import Phrasebook.Format.Roman
import Phrasebook.Proofs.Text.Blank
import Phrasebook.Proofs.Text.Recasing
import Phrasebook.Text.Markup

namespace Phrasebook.Text

def isMarkup (c : Char) : Bool :=
  c == '<' || c == '>' || c == '"' || c == '\''

/-- A text that stays within the text or the attribute it is put in. -/
def NoMarkup (s : List Char) : Prop :=
  ∀ c ∈ s, isMarkup c = false

instance (s : List Char) : Decidable (NoMarkup s) :=
  inferInstanceAs (Decidable (∀ c ∈ s, isMarkup c = false))

theorem noMarkup_nil : NoMarkup [] := by
  rintro c ⟨⟩

theorem noMarkup_cons {c : Char} {s : List Char} :
    NoMarkup (c :: s) ↔ isMarkup c = false ∧ NoMarkup s :=
  List.forall_mem_cons

theorem noMarkup_append {s t : List Char} : NoMarkup (s ++ t) ↔ NoMarkup s ∧ NoMarkup t :=
  List.forall_mem_append

theorem noMarkup_flatMap {α : Type} {l : List α} {f : α → List Char} (h : ∀ a ∈ l, NoMarkup (f a)) :
    NoMarkup (l.flatMap f) := by
  intro c hc
  obtain ⟨a, ha, hc⟩ := List.mem_flatMap.mp hc
  exact h a ha c hc

theorem noMarkup_escapeHtml (s : List Char) : NoMarkup (escapeHtml s) := by
  refine noMarkup_flatMap fun c _ => ?_
  unfold escapeHtmlChar
  split
  · decide
  · decide
  · decide
  · decide
  · decide
  next hlt hgt hquote hapostrophe =>
    rw [noMarkup_cons]
    refine ⟨?_, noMarkup_nil⟩
    simp only [isMarkup, Bool.or_eq_false_iff, beq_eq_false_iff_ne]
    exact ⟨⟨⟨hlt, hgt⟩, hquote⟩, hapostrophe⟩

theorem isMarkup_of_le {c : Char} (h : 64 ≤ c.toNat) : isMarkup c = false := by
  simp only [isMarkup, Bool.or_eq_false_iff, beq_eq_false_iff_ne]
  refine ⟨⟨⟨?_, ?_⟩, ?_⟩, ?_⟩ <;>
  · rintro rfl
    revert h
    decide

theorem Recased.noMarkup {c : Char} {l : List Char} (h : Recased c l) (hc : isMarkup c = false) : NoMarkup l := by
  by_cases hletter : 64 ≤ c.toNat
  · exact fun d hd => isMarkup_of_le (h.letters hletter d hd)
  · rw [h.same (by omega)]
    exact noMarkup_cons.mpr ⟨hc, noMarkup_nil⟩

/-- Changing the case of a text brings no markup into it. -/
theorem Recasing.noMarkup {s t : List Char} (h : Recasing s t) (hs : NoMarkup s) : NoMarkup t := by
  induction h with
  | nil => exact noMarkup_nil
  | cons hc _ ih =>
      rw [noMarkup_cons] at hs
      exact noMarkup_append.mpr ⟨hc.noMarkup hs.1, ih hs.2⟩

end Phrasebook.Text

namespace Phrasebook

open Text

theorem Roman.mem_spell {table : List (Nat × String)} {n : Nat} {c : Char} (h : c ∈ (spell table n).toList) :
    ∃ row ∈ table, c ∈ row.2.toList := by
  induction table generalizing n with
  | nil => cases h
  | cons row table ih =>
      obtain ⟨value, numeral⟩ := row
      rw [spell, String.toList_append, String.toList_join, List.mem_append] at h
      rcases h with h | h
      · obtain ⟨s, hs, hc⟩ := List.mem_flatMap.mp h
        rw [List.eq_of_mem_replicate hs] at hc
        exact ⟨_, List.mem_cons_self, hc⟩
      · obtain ⟨row, hrow, hc⟩ := ih h
        exact ⟨row, List.mem_cons_of_mem _ hrow, hc⟩

theorem Roman.isAlpha_of_mem_write {n : Int} {s : String} (h : Roman.write n = .ok s) :
    ∀ c ∈ s.toList, c.isAlpha = true := by
  have hnumerals : ∀ row ∈ numerals, ∀ c ∈ row.2.toList, c.isAlpha = true := by decide
  unfold Roman.write at h
  split at h
  · cases h
  · split at h
    · cases h
      decide
    · cases h
      intro c hc
      obtain ⟨row, hrow, hc⟩ := mem_spell hc
      exact hnumerals row hrow c hc

theorem Roman.noMarkup_write {n : Int} {s : String} (h : Roman.write n = .ok s) : NoMarkup s.toList := by
  intro c hc
  have halpha := isAlpha_of_mem_write h c hc
  simp only [isMarkup, Bool.or_eq_false_iff, beq_eq_false_iff_ne]
  refine ⟨⟨⟨?_, ?_⟩, ?_⟩, ?_⟩ <;>
  · rintro rfl
    revert halpha
    decide

end Phrasebook
