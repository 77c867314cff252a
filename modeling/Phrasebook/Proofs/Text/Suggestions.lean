import Phrasebook.Text.Distance

namespace Phrasebook.Text

variable {wanted s t u : String} {known known' : List String}

theorem closer_iff : closer wanted s t = true ↔
    lowerDistance wanted s < lowerDistance wanted t ∨ lowerDistance wanted s = lowerDistance wanted t ∧ s ≤ t := by
  simp only [closer, Bool.or_eq_true, Bool.and_eq_true, decide_eq_true_eq, beq_iff_eq]

theorem closer_trans (wanted s t u : String) (h : closer wanted s t = true) (h' : closer wanted t u = true) :
    closer wanted s u = true := by
  rw [closer_iff] at h h' ⊢
  rcases h with h | ⟨hst, h⟩
  · exact .inl (by omega)
  · rcases h' with h' | ⟨htu, h'⟩
    · exact .inl (by omega)
    · exact .inr ⟨hst.trans htu, String.le_trans h h'⟩

theorem closer_total (wanted s t : String) : (closer wanted s t || closer wanted t s) = true := by
  rw [Bool.or_eq_true, closer_iff, closer_iff]
  rcases Nat.lt_trichotomy (lowerDistance wanted s) (lowerDistance wanted t) with h | h | h
  · exact .inl (.inl h)
  · exact (String.le_total s t).imp (fun hle => .inr ⟨h, hle⟩) fun hle => .inr ⟨h.symm, hle⟩
  · exact .inr (.inl h)

theorem closer_antisymm (h : closer wanted s t = true) (h' : closer wanted t s = true) : s = t := by
  rw [closer_iff] at h h'
  rcases h with h | ⟨hst, h⟩
  · rcases h' with h' | ⟨hts, -⟩ <;> omega
  · rcases h' with h' | ⟨-, h'⟩
    · omega
    · exact String.le_antisymm h h'

/-- Nearer to what is wanted, or as near and before the other in order. -/
def Nearer (wanted s t : String) : Prop :=
  lowerDistance wanted s < lowerDistance wanted t ∨ lowerDistance wanted s = lowerDistance wanted t ∧ s < t

theorem nearer_of_closer (h : closer wanted s t = true) (hne : s ≠ t) : Nearer wanted s t :=
  (closer_iff.mp h).imp_right fun h => ⟨h.1, Std.lt_of_le_of_ne h.2 hne⟩

theorem suggestions_perm_filter (wanted : String) (known : List String) :
    (suggestions wanted known).Perm (known.filter fun key => lowerDistance wanted key ≤ tolerance wanted) := by
  rw [suggestions]
  exact List.mergeSort_perm _ _

theorem mem_suggestions_iff :
    s ∈ suggestions wanted known ↔ s ∈ known ∧ lowerDistance wanted s ≤ tolerance wanted := by
  rw [(suggestions_perm_filter wanted known).mem_iff, List.mem_filter, decide_eq_true_eq]

theorem pairwise_closer_suggestions (wanted : String) (known : List String) :
    (suggestions wanted known).Pairwise fun s t => closer wanted s t = true := by
  rw [suggestions]
  exact List.pairwise_mergeSort (closer_trans wanted) (closer_total wanted) _

theorem pairwise_nearer_suggestions (h : known.Nodup) : (suggestions wanted known).Pairwise (Nearer wanted) := by
  have hnodup : (suggestions wanted known).Nodup := by
    rw [(suggestions_perm_filter wanted known).nodup_iff]
    exact h.filter _
  refine ((pairwise_closer_suggestions wanted known).and hnodup).imp fun {s t} h => ?_
  exact nearer_of_closer h.1 h.2

theorem suggestions_eq_of_perm (h : known.Perm known') : suggestions wanted known = suggestions wanted known' := by
  have hperm : (suggestions wanted known).Perm (suggestions wanted known') :=
    (suggestions_perm_filter wanted known).trans
      ((h.filter _).trans (suggestions_perm_filter wanted known').symm)
  exact hperm.eq_of_pairwise (fun _ _ _ _ => closer_antisymm) (pairwise_closer_suggestions wanted known)
    (pairwise_closer_suggestions wanted known')

end Phrasebook.Text
