import Phrasebook.Format.Basic
import Phrasebook.Proofs.Calendar.DayOrder
import Phrasebook.Proofs.Text.Digits

namespace Phrasebook

open Text

namespace Format

def fields : (shape : List (Nat × Char)) → List Nat → List Char
  | (width, mark) :: shape, n :: ns => digits n width ++ mark :: fields shape ns
  | _, _ => []

def Fits (shape : List (Nat × Char)) (ns : List Nat) : Prop :=
  List.Forall₂ (fun field n => 0 < field.1 ∧ n < 10 ^ field.1) shape ns

theorem append_lt_append {s t : List Char} (hlength : s.length = t.length) (h : s < t) (u v : List Char) :
    s ++ u < t ++ v := by
  induction s generalizing t with
  | nil =>
      cases List.eq_nil_of_length_eq_zero hlength.symm
      cases h
  | cons c s ih =>
      cases t with
      | nil => cases hlength
      | cons d t =>
          rw [List.cons_lt_cons_iff] at h
          rw [List.cons_append, List.cons_append, List.cons_lt_cons_iff]
          exact h.imp_right fun h => ⟨h.1, ih (Nat.succ.inj hlength) h.2⟩

theorem digits_lt {n m width : Nat} (hwidth : 0 < width) (hlt : n < m) (hm : m < 10 ^ width) :
    digits n width < digits m width := by
  refine lt_of_digitsValue_lt (fun _ => isDigit_of_mem_padded) (fun _ => isDigit_of_mem_padded) ?_ ?_
  · exact (length_padded hwidth (Nat.lt_trans hlt hm)).trans (length_padded hwidth hm).symm
  · rw [digits, digits, digitsValue_padded, digitsValue_padded]
    exact hlt

theorem fields_lt {shape : List (Nat × Char)} {ns ms : List Nat} (hns : Fits shape ns) (hms : Fits shape ms)
    (h : ns < ms) : fields shape ns < fields shape ms := by
  induction hns generalizing ms with
  | nil =>
      cases hms
      exact (List.not_lt_nil _ h).elim
  | cons hn _ ih =>
      obtain _ | ⟨hm, hms⟩ := hms
      rw [fields, fields]
      rcases List.cons_lt_cons_iff.mp h with hlt | ⟨rfl, hlt⟩
      · refine append_lt_append ?_ (digits_lt hn.1 hlt hm.2) _ _
        exact (length_padded hn.1 hn.2).trans (length_padded hn.1 hm.2).symm
      · exact List.append_left_lt (List.cons_lt_cons_iff.mpr (.inr ⟨rfl, ih hms hlt⟩))

theorem fields_injective {shape : List (Nat × Char)} {ns ms : List Nat} (hns : Fits shape ns) (hms : Fits shape ms)
    (h : fields shape ns = fields shape ms) : ns = ms := by
  induction hns generalizing ms with
  | nil =>
      cases hms
      rfl
  | cons hn _ ih =>
      obtain _ | ⟨hm, hms⟩ := hms
      have hlength := (length_padded hn.1 hn.2).trans (length_padded hn.1 hm.2).symm
      obtain ⟨hdigits, hrest⟩ := List.append_inj h hlength
      have hvalue := congrArg digitsValue hdigits
      rw [digits, digits, digitsValue_padded, digitsValue_padded] at hvalue
      rw [hvalue, ih hms (List.cons.inj hrest).2]

end Format

namespace Moment

/-- In the order of time. A leap second stands behind the second that it prolongs. -/
def NotAfter (m m' : Moment) : Prop :=
  m.instant < m'.instant ∨ m.instant = m'.instant ∧ m.nanosecond ≤ m'.nanosecond

def HasFourDigitYear (m : Moment) : Prop :=
  0 ≤ (m.atOffset 0).date.year ∧ (m.atOffset 0).date.year ≤ 9999

instance (m : Moment) : Decidable m.HasFourDigitYear :=
  inferInstanceAs (Decidable (_ ∧ _))

def SameSecond (m m' : Moment) : Prop :=
  (m.atOffset 0).date = (m'.atOffset 0).date ∧ (m.atOffset 0).hour = (m'.atOffset 0).hour ∧
    (m.atOffset 0).minute = (m'.atOffset 0).minute ∧ (m.atOffset 0).second = (m'.atOffset 0).second

def stamp (m : Moment) : List Nat :=
  let utc := m.atOffset 0
  [utc.date.year.toNat, utc.date.month, utc.date.day, utc.hour, utc.minute, utc.second]

def stampShape : List (Nat × Char) :=
  [(4, '-'), (2, '-'), (2, ' '), (2, ':'), (2, ':'), (2, 'Z')]

theorem clock_bounds (m : Moment) : m.hour < 24 ∧ m.minute < 60 ∧ m.second < 60 := by
  unfold hour minute second secondOfDay
  omega

theorem stamp_fits {m : Moment} (h : m.HasFourDigitYear) : Format.Fits stampShape m.stamp := by
  obtain ⟨hhour, hminute, hsecond⟩ := (m.atOffset 0).clock_bounds
  have hyear : (m.atOffset 0).date.year.toNat < 10 ^ 4 := by
    have := h.2
    omega
  have hmonth : (m.atOffset 0).date.month < 10 ^ 2 :=
    Nat.lt_of_le_of_lt (Date.ofDayNumber_month _).2.1 (by decide)
  have hday : (m.atOffset 0).date.day < 10 ^ 2 :=
    Nat.lt_of_le_of_lt (Date.ofDayNumber_day _).2.1 (by decide)
  exact .cons ⟨by decide, hyear⟩ (.cons ⟨by decide, hmonth⟩ (.cons ⟨by decide, hday⟩
    (.cons ⟨by decide, Nat.lt_trans hhour (by decide)⟩ (.cons ⟨by decide, Nat.lt_trans hminute (by decide)⟩
      (.cons ⟨by decide, Nat.lt_trans hsecond (by decide)⟩ .nil)))))

theorem stamp_lt {m m' : Moment} (h : m.HasFourDigitYear) (h' : m'.HasFourDigitYear) (hlt : m.instant < m'.instant) :
    m.stamp < m'.stamp := by
  have hyear := h.1
  have hyear' := h'.1
  simp only [stamp, List.cons_lt_cons_iff, List.lt_irrefl]
  have hday : (m.atOffset 0).clock / 86400 < (m'.atOffset 0).clock / 86400 ∨
      (m.atOffset 0).clock / 86400 = (m'.atOffset 0).clock / 86400 ∧
        (m.atOffset 0).secondOfDay < (m'.atOffset 0).secondOfDay := by
    simp only [secondOfDay, clock, atOffset]
    omega
  rcases hday with hday | ⟨hday, hsecond⟩
  · have hbefore : (m.atOffset 0).date.Before (m'.atOffset 0).date := Date.ofDayNumber_before hday
    unfold Date.Before at hbefore
    omega
  · have hdate : (m.atOffset 0).date = (m'.atOffset 0).date := congrArg Date.ofDayNumber hday
    rw [hdate]
    unfold hour minute second
    omega

theorem stamp_eq_iff {m m' : Moment} (h : m.HasFourDigitYear) (h' : m'.HasFourDigitYear) :
    m.stamp = m'.stamp ↔ m.SameSecond m' := by
  have hyear : (m.atOffset 0).date.year.toNat = (m'.atOffset 0).date.year.toNat ↔
      (m.atOffset 0).date.year = (m'.atOffset 0).date.year := by
    unfold HasFourDigitYear at h h'
    omega
  simp [stamp, SameSecond, hyear, Date.eq_iff, and_assoc]

theorem runs_universal : Format.runs "yyyy-MM-dd HH:mm:ss'Z'".toList =
    [.field 'y' 4, .field '-' 1, .field 'M' 2, .field '-' 1, .field 'd' 2, .field ' ' 1, .field 'H' 2, .field ':' 1,
      .field 'm' 2, .field ':' 1, .field 's' 2, .literal ['Z']] := by
  simp [Format.runs]

theorem toList_universal {m : Moment} (h : m.HasFourDigitYear) :
    (Format.universal m).toList = Format.fields stampShape m.stamp := by
  have hyear : Format.year 4 (m.atOffset 0).date.year = Format.digits (m.atOffset 0).date.year.toNat 4 := by
    rw [Format.year, if_neg (Int.not_lt.mpr h.1)]
    · congr 1
      have := h.1
      omega
    · decide
    · decide
  rw [Format.universal, Format.customMoment, runs_universal, String.toList_ofList]
  simp [Format.writeRuns, Format.writeField, hyear, Format.fields, stampShape, stamp]

theorem universal_lt {m m' : Moment} (h : m.HasFourDigitYear) (h' : m'.HasFourDigitYear)
    (hlt : m.instant < m'.instant) : Format.universal m < Format.universal m' := by
  rw [String.lt_iff, toList_universal h, toList_universal h']
  exact Format.fields_lt (stamp_fits h) (stamp_fits h') (stamp_lt h h' hlt)

theorem universal_eq_iff {m m' : Moment} (h : m.HasFourDigitYear) (h' : m'.HasFourDigitYear) :
    Format.universal m = Format.universal m' ↔ m.SameSecond m' := by
  rw [← String.toList_inj, toList_universal h, toList_universal h', ← stamp_eq_iff h h']
  exact ⟨Format.fields_injective (stamp_fits h) (stamp_fits h'), congrArg _⟩

theorem sameSecond_of_instant_eq {m m' : Moment} (h : m.instant = m'.instant) : m.SameSecond m' := by
  simp only [SameSecond, date, hour, minute, second, secondOfDay, clock, atOffset, h, and_self]

/-- The universal format sorts by time, and tells two seconds apart. -/
theorem universal_sorts (culture culture' : Culture) {m m' : Moment} (h : m.HasFourDigitYear)
    (h' : m'.HasFourDigitYear) : ∃ text text', (Value.moment m).formatted culture "u" = .ok text ∧
      (Value.moment m').formatted culture' "u" = .ok text' ∧ (m.NotAfter m' → text ≤ text') ∧
      (text = text' ↔ m.SameSecond m') := by
  refine ⟨_, _, rfl, rfl, ?_, universal_eq_iff h h'⟩
  rintro (hlt | ⟨heq, -⟩)
  · exact Std.le_of_lt (universal_lt h h' hlt)
  · exact Std.le_of_eq ((universal_eq_iff h h').mpr (sameSecond_of_instant_eq heq))

/-- A leap second at the end of a year and the midnight behind it, told at two offsets. -/
theorem universal_sorts_leapSecond :
    (⟨1735689599, 1500000000, 7200⟩ : Moment).HasFourDigitYear ∧ (⟨1735689600, 0, -18000⟩ : Moment).HasFourDigitYear ∧
      ∃ text text', (Value.moment ⟨1735689599, 1500000000, 7200⟩).formatted .invariant "u" = .ok text ∧
        (Value.moment ⟨1735689600, 0, -18000⟩).formatted .invariant "u" = .ok text' ∧ text ≤ text' ∧ text ≠ text' := by
  have h : (⟨1735689599, 1500000000, 7200⟩ : Moment).HasFourDigitYear := by decide
  have h' : (⟨1735689600, 0, -18000⟩ : Moment).HasFourDigitYear := by decide
  obtain ⟨text, text', hok, hok', hle, heq⟩ := universal_sorts .invariant .invariant h h'
  exact ⟨h, h', text, text', hok, hok', hle (.inl (by decide)), fun he => absurd (heq.mp he).1 (by decide)⟩

end Moment

end Phrasebook
