import Phrasebook.Calendar.Span
import Phrasebook.Decimal.Reading

namespace Phrasebook

namespace Span

/-- The lengths that milliseconds of sixty-four bits hold, whatever the sign. -/
def InRange (d : Span) : Prop :=
  d.nanoseconds.natAbs ≤ 0x7fffffffffffffff * 1000000

instance (d : Span) : Decidable d.InRange :=
  inferInstanceAs (Decidable (_ ≤ _))

/-- What a text may tell of a length: its sign, its days and its clock down to ticks of 100 ns. -/
structure Figures where
  negative : Bool
  days : Nat
  hours : Nat
  minutes : Nat
  seconds : Nat
  ticks : Nat
deriving DecidableEq

def Figures.magnitude (f : Figures) : Nat :=
  10000000 * (60 * (60 * (24 * f.days + f.hours) + f.minutes) + f.seconds) + f.ticks

/-- The figures are those of a length, truncated to ticks. -/
structure Figures.Tells (f : Figures) (d : Span) : Prop where
  negative : f.negative = decide (d.nanoseconds < 0)
  magnitude : f.magnitude = d.nanoseconds.natAbs / 100
  hours : f.hours < 24
  minutes : f.minutes < 60
  seconds : f.seconds < 60
  ticks : f.ticks < 10000000

def figures (d : Span) : Figures :=
  ⟨d.isNegative, d.parts.days, d.parts.hours, d.parts.minutes, d.parts.seconds, d.parts.nanoseconds / 100⟩

theorem figures_tells (d : Span) : d.figures.Tells d where
  negative := rfl
  magnitude := by simp only [figures, parts, Figures.magnitude]; omega
  hours := Nat.mod_lt _ (by decide)
  minutes := Nat.mod_lt _ (by decide)
  seconds := Nat.mod_lt _ (by decide)
  ticks := by simp only [figures, parts]; omega

theorem figures_eq_iff (d e : Span) : d.figures = e.figures ↔
    d.isNegative = e.isNegative ∧ d.nanoseconds.natAbs / 100 = e.nanoseconds.natAbs / 100 := by
  constructor
  · intro h
    refine ⟨congrArg Figures.negative h, ?_⟩
    rw [← d.figures_tells.magnitude, ← e.figures_tells.magnitude, h]
  · rintro ⟨hnegative, hticks⟩
    simp only [figures, parts, Figures.mk.injEq]
    exact ⟨hnegative, by omega, by omega, by omega, by omega, by omega⟩

theorem whole_eq (d : Span) (unit : Nat) : d.whole unit = withSign d.isNegative (d.nanoseconds.natAbs / unit) := by
  rw [whole, withSign, isNegative, Int.ofNat_tdiv]
  rcases Int.lt_or_le d.nanoseconds 0 with h | h
  · rw [if_pos (decide_eq_true h), ← Int.neg_tdiv, Int.ofNat_natAbs_of_nonpos (Int.le_of_lt h), Int.neg_neg]
  · rw [if_neg (by simpa using h), Int.natAbs_of_nonneg h]

theorem tmod_withSign (negative : Bool) (n k : Nat) : (withSign negative n).tmod k = withSign negative (n % k) := by
  cases negative with
  | false => exact (Int.ofNat_tmod n k).symm
  | true =>
      rw [withSign, withSign, if_pos rfl, if_pos rfl, Int.neg_tmod, Int.ofNat_tmod]

end Span

end Phrasebook
