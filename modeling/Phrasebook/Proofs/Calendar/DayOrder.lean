import Phrasebook.Calendar.Date

namespace Phrasebook

namespace Date

/-- Years come first, then months, then days. -/
def Before (a b : Date) : Prop :=
  a.year < b.year ∨ a.year = b.year ∧ (a.month < b.month ∨ a.month = b.month ∧ a.day < b.day)

theorem eq_iff (a b : Date) : a = b ↔ a.year = b.year ∧ a.month = b.month ∧ a.day = b.day := by
  cases a
  cases b
  rw [mk.injEq]

def era (n : Int) : Int :=
  (n + 719468) / 146097

def dayOfEra (n : Int) : Int :=
  (n + 719468) % 146097

def yearOfEra (day : Int) : Int :=
  (day - day / 1460 + day / 36524 - day / 146096) / 365

def daysBeforeYear (year : Int) : Int :=
  365 * year + year / 4 - year / 100

def yearFromMarch (n : Int) : Int :=
  yearOfEra (dayOfEra n) + 400 * era n

def dayFromMarch (n : Int) : Int :=
  dayOfEra n - daysBeforeYear (yearOfEra (dayOfEra n))

def monthFromMarch (n : Int) : Int :=
  (5 * dayFromMarch n + 2) / 153

theorem yearOfEra_mono {a b : Int} (h : a ≤ b) : yearOfEra a ≤ yearOfEra b := by
  unfold yearOfEra
  apply Int.ediv_le_ediv (by decide)
  omega

theorem yearOfEra_daysBeforeYear {year : Int} (h : 0 ≤ year ∧ year < 400) :
    yearOfEra (daysBeforeYear year) = year := by
  unfold yearOfEra daysBeforeYear
  have hleap : (365 * year + year / 4 - year / 100) / 1460 = year / 4 := by omega
  have hcentury : (365 * year + year / 4 - year / 100) / 36524 = year / 100 := by omega
  omega

theorem yearOfEra_dayBefore {year : Int} (h : 1 ≤ year ∧ year < 400) :
    yearOfEra (daysBeforeYear year - 1) = year - 1 := by
  unfold yearOfEra daysBeforeYear
  have hleap : (365 * year + year / 4 - year / 100 - 1) / 1460 = year / 4 := by omega
  have hcentury : (365 * year + year / 4 - year / 100 - 1) / 36524 = (year - 1) / 100 := by omega
  have hera : (365 * year + year / 4 - year / 100 - 1) / 146096 = 0 := by omega
  rw [hleap, hcentury, hera]
  omega

theorem dayOfEra_bounds (n : Int) : 0 ≤ dayOfEra n ∧ dayOfEra n < 146097 := by
  unfold dayOfEra
  omega

theorem yearOfEra_bounds (n : Int) : 0 ≤ yearOfEra (dayOfEra n) ∧ yearOfEra (dayOfEra n) < 400 := by
  have := dayOfEra_bounds n
  unfold yearOfEra
  omega

theorem daysBeforeYear_le (n : Int) : daysBeforeYear (yearOfEra (dayOfEra n)) ≤ dayOfEra n := by
  obtain ⟨hday, -⟩ := dayOfEra_bounds n
  obtain ⟨hyear, hyear'⟩ := yearOfEra_bounds n
  refine Int.not_lt.mp fun hlt => ?_
  have hpos : 1 ≤ yearOfEra (dayOfEra n) := by
    unfold daysBeforeYear at hlt
    omega
  -- the formula for the year is right on the day before this one, and it never falls
  have hmono := yearOfEra_mono (Int.le_sub_one_of_lt hlt)
  rw [yearOfEra_dayBefore ⟨hpos, hyear'⟩] at hmono
  omega

theorem lt_daysBeforeYear (n : Int) : dayOfEra n < daysBeforeYear (yearOfEra (dayOfEra n)) + 366 := by
  obtain ⟨-, hday⟩ := dayOfEra_bounds n
  obtain ⟨hyear, -⟩ := yearOfEra_bounds n
  refine Int.not_le.mp fun hle => ?_
  have hlast : yearOfEra (dayOfEra n) + 1 < 400 := by
    unfold daysBeforeYear at hle
    omega
  have hnext : daysBeforeYear (yearOfEra (dayOfEra n) + 1) ≤ dayOfEra n := by
    unfold daysBeforeYear at hle ⊢
    omega
  have hmono := yearOfEra_mono hnext
  rw [yearOfEra_daysBeforeYear ⟨by omega, hlast⟩] at hmono
  omega

theorem dayFromMarch_bounds (n : Int) : 0 ≤ dayFromMarch n ∧ dayFromMarch n ≤ 365 := by
  have := daysBeforeYear_le n
  have := lt_daysBeforeYear n
  unfold dayFromMarch
  omega

theorem fromMarch_lt {n m : Int} (h : n < m) : yearFromMarch n < yearFromMarch m ∨
    yearFromMarch n = yearFromMarch m ∧ dayFromMarch n < dayFromMarch m := by
  have hn := yearOfEra_bounds n
  have hm := yearOfEra_bounds m
  have hera : era n < era m ∨ era n = era m ∧ dayOfEra n < dayOfEra m := by
    unfold era dayOfEra
    omega
  unfold yearFromMarch dayFromMarch
  rcases hera with hera | ⟨hera, hday⟩
  · exact .inl (by omega)
  · have hyear := yearOfEra_mono (Int.le_of_lt hday)
    rcases Int.lt_or_eq_of_le hyear with hlt | heq
    · exact .inl (by omega)
    · rw [heq]
      exact .inr (by omega)

theorem monthFromMarch_bounds (n : Int) : 0 ≤ monthFromMarch n ∧ monthFromMarch n ≤ 11 := by
  have := dayFromMarch_bounds n
  unfold monthFromMarch
  omega

theorem ofDayNumber_month (n : Int) : 1 ≤ (ofDayNumber n).month ∧ (ofDayNumber n).month ≤ 12 ∧
    12 * (ofDayNumber n).year + (ofDayNumber n).month = 12 * yearFromMarch n + monthFromMarch n + 3 := by
  have hmonth := monthFromMarch_bounds n
  have heq : (ofDayNumber n).month =
      (if monthFromMarch n < 10 then monthFromMarch n + 3 else monthFromMarch n - 9).toNat :=
    rfl
  have hyear : (ofDayNumber n).year = yearFromMarch n +
      if (if monthFromMarch n < 10 then monthFromMarch n + 3 else monthFromMarch n - 9) ≤ 2 then 1 else 0 :=
    rfl
  omega

theorem ofDayNumber_day (n : Int) : 1 ≤ (ofDayNumber n).day ∧ (ofDayNumber n).day ≤ 31 ∧
    ((ofDayNumber n).day : Int) = dayFromMarch n - daysBeforeMonth (monthFromMarch n) + 1 := by
  have heq : (ofDayNumber n).day = (dayFromMarch n - daysBeforeMonth (monthFromMarch n) + 1).toNat := rfl
  have hday : 0 ≤ dayFromMarch n - daysBeforeMonth (monthFromMarch n) ∧
      dayFromMarch n - daysBeforeMonth (monthFromMarch n) ≤ 30 := by
    unfold daysBeforeMonth monthFromMarch
    omega
  omega

/-- Later days have later dates. -/
theorem ofDayNumber_before {n m : Int} (h : n < m) : (ofDayNumber n).Before (ofDayNumber m) := by
  obtain ⟨hn, hn', hmonths⟩ := ofDayNumber_month n
  obtain ⟨hm, hm', hmonths'⟩ := ofDayNumber_month m
  obtain ⟨-, -, hday⟩ := ofDayNumber_day n
  obtain ⟨-, -, hday'⟩ := ofDayNumber_day m
  have hbounds := monthFromMarch_bounds n
  have hbounds' := monthFromMarch_bounds m
  unfold Before
  -- twelve times the year and the month count months, in which the start of the year plays no part
  rcases fromMarch_lt h with hyear | ⟨hyear, hlt⟩
  · omega
  · have hmono : monthFromMarch n ≤ monthFromMarch m := by
      unfold monthFromMarch
      omega
    rcases Int.lt_or_eq_of_le hmono with hmonth | hmonth
    · omega
    · rw [hmonth] at hday
      omega

end Date

end Phrasebook
