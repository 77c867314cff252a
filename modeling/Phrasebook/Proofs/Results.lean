import Mathlib.Data.List.Forall2

namespace Phrasebook

theorem bind_eq_ok_iff {ε α β : Type} {x : Except ε α} {f : α → Except ε β} {b : β} :
    (x >>= f) = .ok b ↔ ∃ a, x = .ok a ∧ f a = .ok b := by
  cases x with
  | error e =>
      constructor
      · rintro ⟨⟩
      · rintro ⟨a, ⟨⟩, -⟩
  | ok a =>
      constructor
      · intro h
        exact ⟨a, rfl, h⟩
      · rintro ⟨a', ⟨⟩, h⟩
        exact h

theorem bind_eq_error_iff {ε α β : Type} {x : Except ε α} {f : α → Except ε β} {e : ε} :
    (x >>= f) = .error e ↔ x = .error e ∨ ∃ a, x = .ok a ∧ f a = .error e := by
  cases x with
  | error e' =>
      constructor
      · rintro ⟨⟩
        exact .inl rfl
      · rintro (⟨⟨⟩⟩ | ⟨a, ⟨⟩, -⟩)
        rfl
  | ok a =>
      constructor
      · intro h
        exact .inr ⟨a, rfl, h⟩
      · rintro (⟨⟨⟩⟩ | ⟨a', ⟨⟩, h⟩)
        exact h

theorem map_eq_ok_iff {ε α β : Type} {x : Except ε α} {f : α → β} {b : β} :
    x.map f = .ok b ↔ ∃ a, x = .ok a ∧ f a = b := by
  cases x <;> simp [Except.map]

theorem map_eq_error_iff {ε α β : Type} {x : Except ε α} {f : α → β} {e : ε} :
    x.map f = .error e ↔ x = .error e := by
  cases x <;> simp [Except.map]

theorem map_eq_bind {ε α β : Type} (x : Except ε α) (f : α → β) : x.map f = x >>= fun a => pure (f a) := by
  cases x <;> rfl

theorem mapError_eq_ok_iff {ε ε' α : Type} {x : Except ε α} {f : ε → ε'} {a : α} :
    x.mapError f = .ok a ↔ x = .ok a := by
  cases x <;> simp [Except.mapError]

theorem any_toOption_iff {ε α : Type} {x : Except ε α} {p : α → Bool} :
    x.toOption.any p = true ↔ ∃ a, x = .ok a ∧ p a = true := by
  cases x <;> simp [Except.toOption]

theorem isSome_toOption_iff {ε α : Type} {x : Except ε α} : x.toOption.isSome = true ↔ ∃ a, x = .ok a := by
  cases x <;> simp [Except.toOption]

theorem pure_eq_ok_iff {ε α : Type} {a b : α} : (pure a : Except ε α) = .ok b ↔ a = b := by
  simp [pure, Except.pure]

theorem bind_elim_eq_ok_iff {ε α : Type} {x : Except ε (Option α)} {e : ε} {a : α} :
    (x >>= fun found => found.elim (.error e) .ok) = .ok a ↔ x = .ok (some a) := by
  rw [bind_eq_ok_iff]
  constructor
  · rintro ⟨_ | b, hx, h⟩
    · cases h
    · cases h
      exact hx
  · rintro rfl
    exact ⟨some a, rfl, rfl⟩

theorem mapM_eq_ok_iff {ε α β : Type} {f : α → Except ε β} {l : List α} {bs : List β} :
    l.mapM f = .ok bs ↔ List.Forall₂ (fun a b => f a = .ok b) l bs := by
  induction l generalizing bs with
  | nil => rw [List.mapM_nil, pure_eq_ok_iff, List.forall₂_nil_left_iff, eq_comm]
  | cons a l ih =>
      simp only [List.mapM_cons, bind_eq_ok_iff, pure_eq_ok_iff, ih, List.forall₂_cons_left_iff]
      constructor
      · rintro ⟨b, hb, bs', hbs', rfl⟩
        exact ⟨b, bs', hb, hbs', rfl⟩
      · rintro ⟨b, bs', hb, hbs', rfl⟩
        exact ⟨b, hb, bs', hbs', rfl⟩

theorem findSomeM?_eq_none_iff {ε α β : Type} {f : α → Except ε (Option β)} {l : List α} :
    l.findSomeM? f = .ok none ↔ ∀ a ∈ l, f a = .ok none := by
  induction l with
  | nil => simp [pure_eq_ok_iff]
  | cons a l ih =>
      rw [List.findSomeM?_cons, bind_eq_ok_iff, List.forall_mem_cons, ← ih]
      constructor
      · rintro ⟨_ | b, hfound, h⟩
        · exact ⟨hfound, h⟩
        · cases h
      · rintro ⟨hfound, h⟩
        exact ⟨none, hfound, h⟩

theorem exists_error_of_findSomeM? {ε α β : Type} {f : α → Except ε (Option β)} {l : List α} {e : ε}
    (h : l.findSomeM? f = .error e) : ∃ a ∈ l, f a = .error e := by
  induction l with
  | nil => cases h
  | cons a l ih =>
      rw [List.findSomeM?_cons] at h
      rcases bind_eq_error_iff.mp h with h | ⟨found, -, h⟩
      · exact ⟨a, List.mem_cons_self, h⟩
      · cases found with
        | some c => cases h
        | none =>
            obtain ⟨a', hmem, ha'⟩ := ih h
            exact ⟨a', List.mem_cons_of_mem a hmem, ha'⟩

theorem exists_of_findSomeM? {ε α β : Type} {f : α → Except ε (Option β)} {l : List α} {b : β}
    (h : l.findSomeM? f = .ok (some b)) : ∃ a ∈ l, f a = .ok (some b) := by
  induction l with
  | nil => cases h
  | cons a l ih =>
      rw [List.findSomeM?_cons] at h
      obtain ⟨found, hfound, h⟩ := bind_eq_ok_iff.mp h
      cases found with
      | some c =>
          cases h
          exact ⟨a, List.mem_cons_self, hfound⟩
      | none =>
          obtain ⟨a', hmem, ha'⟩ := ih h
          exact ⟨a', List.mem_cons_of_mem a hmem, ha'⟩

end Phrasebook
