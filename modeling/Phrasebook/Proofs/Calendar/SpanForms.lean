import Mathlib.Data.List.TakeDrop
import Mathlib.Data.List.TakeWhile
import Phrasebook.Calendar.SpanReader
import Phrasebook.Proofs.Calendar.SpanUnits
import Phrasebook.Proofs.Results
import Phrasebook.Proofs.Text.Digits

namespace Phrasebook

open Text

namespace SpanForm

structure Numeral where
  digits : List Char
  ne_nil : digits ≠ []
  isDigit_of_mem : ∀ c ∈ digits, isDigit c = true

/-- A count of units, which sixty-four bits hold. -/
structure Count extends Numeral where
  value_lt : digitsValue digits < 0x8000000000000000

/-- A decimal fraction of a second, with the mark that begins it. -/
structure Fraction extends Numeral where
  mark : Char
  isMark : mark = '.' ∨ mark = ','

structure Seconds where
  whole : Count
  fraction : Option Fraction

structure Clock where
  hours : Option Count
  minutes : Option Count
  seconds : Option Seconds

structure Parts where
  years : Option Count
  months : Option Count
  weeks : Option Count
  days : Option Count
  clock : Option Clock

def Clock.isAny (c : Clock) : Bool :=
  c.hours.isSome || (c.minutes.isSome || c.seconds.isSome)

def Parts.isAny (p : Parts) : Bool :=
  (p.years.isSome || (p.months.isSome || (p.weeks.isSome || p.days.isSome))) || p.clock.any Clock.isAny

end SpanForm

/-- A written duration: a sign and parts, of which at least one is there. -/
structure SpanForm extends SpanForm.Parts where
  negative : Bool
  isAny : toParts.isAny = true

namespace SpanForm

def component (designator : Char) : Option Count → List Char
  | none => []
  | some n => n.digits ++ [designator]

def Fraction.spelling (f : Fraction) : List Char :=
  f.mark :: f.digits

def Seconds.spelling (s : Seconds) : List Char :=
  s.whole.digits ++ (s.fraction.elim [] Fraction.spelling ++ ['S'])

def Clock.spelling (c : Clock) : List Char :=
  component 'H' c.hours ++ (component 'M' c.minutes ++ c.seconds.elim [] Seconds.spelling)

def Parts.spelling (p : Parts) : List Char :=
  'P' :: (component 'Y' p.years ++ (component 'M' p.months ++ (component 'W' p.weeks ++
    (component 'D' p.days ++ p.clock.elim [] fun c => 'T' :: c.spelling))))

def spelling (f : SpanForm) : List Char :=
  if f.negative then '-' :: f.toParts.spelling else f.toParts.spelling

def Count.value (n : Count) : Nat :=
  digitsValue n.digits

def units (size : Nat) (n : Option Count) : Nat :=
  n.elim 0 (·.value * size)

/-- The fraction of a thousand million, truncated. -/
def Fraction.nanoseconds (f : Fraction) : Nat :=
  1000000000 * digitsValue f.digits / 10 ^ f.digits.length

def Seconds.nanoseconds (s : Seconds) : Nat :=
  1000000000 * s.whole.value + s.fraction.elim 0 Fraction.nanoseconds

def Clock.nanoseconds (c : Clock) : Nat :=
  units 3600000000000 c.hours + (units 60000000000 c.minutes + c.seconds.elim 0 Seconds.nanoseconds)

/-- A year has 365 days and a month 30. -/
def Parts.date (p : Parts) : Nat :=
  units 365 p.years + (units 30 p.months + (units 7 p.weeks + units 1 p.days))

def Parts.nanoseconds (p : Parts) : Nat :=
  86400000000000 * p.date + p.clock.elim 0 Clock.nanoseconds

def span (f : SpanForm) : Span :=
  ⟨withSign f.negative f.toParts.nanoseconds⟩

open SpanReader

def afterDigits (s : List Char) : Option Char :=
  (s.dropWhile isDigit).head?

section

variable {c d : Char} {s rest : List Char}

theorem Numeral.span_append (n : Numeral) (hrest : ∀ d ∈ rest.head?, isDigit d = false) :
    (n.digits ++ rest).span isDigit = (n.digits, rest) :=
  span_isDigit_append n.isDigit_of_mem hrest

theorem Numeral.span_append_cons (n : Numeral) (hc : isDigit c = false) :
    (n.digits ++ c :: rest).span isDigit = (n.digits, c :: rest) := by
  refine n.span_append ?_
  rintro d ⟨⟩
  exact hc

theorem Numeral.afterDigits_append (n : Numeral) (hc : isDigit c = false) :
    afterDigits (n.digits ++ c :: rest) = some c := by
  have hspan : (n.digits ++ c :: rest).span isDigit = (n.digits, c :: rest) := n.span_append_cons hc
  rw [List.span_eq_takeWhile_dropWhile, Prod.mk.injEq] at hspan
  rw [afterDigits, hspan.2]
  rfl

theorem Count.count?_eq (n : Count) : count? n.digits = some n.value := by
  have hread : readNat? n.digits = some n.value := if_pos ⟨n.ne_nil, List.all_eq_true.mpr n.isDigit_of_mem⟩
  rw [count?, hread]
  exact if_pos (decide_eq_true n.value_lt)

theorem exists_of_count? {n : Nat} (hs : ∀ c ∈ s, isDigit c = true) (h : count? s = some n) :
    ∃ m : Count, m.digits = s ∧ m.value = n := by
  obtain ⟨hread, hlt⟩ := Option.filter_eq_some_iff.mp h
  obtain ⟨⟨hne, -⟩, ⟨⟩⟩ := Option.ite_none_right_eq_some.mp hread
  exact ⟨⟨⟨s, hne, hs⟩, of_decide_eq_true hlt⟩, rfl, rfl⟩

theorem component?_component (n : Count) (hc : isDigit c = false) :
    component? c (component c (some n) ++ rest) = some (n.value, rest) := by
  rw [component, List.append_assoc, List.singleton_append, component?, n.span_append_cons hc]
  dsimp only
  rw [if_pos rfl, n.count?_eq]
  rfl

theorem component?_of_ne (h : afterDigits s ≠ some c) : component? c s = none := by
  rw [component?, List.span_eq_takeWhile_dropWhile]
  dsimp only
  split
  next d t heq =>
    refine if_neg fun he => h ?_
    rw [afterDigits, heq, he]
    rfl
  next => rfl

theorem exists_of_component? {n : Nat} (h : component? c s = some (n, rest)) :
    ∃ m : Count, m.value = n ∧ s = component c (some m) ++ rest := by
  rw [component?, List.span_eq_takeWhile_dropWhile] at h
  dsimp only at h
  split at h
  next d t heq =>
    obtain ⟨rfl, hcount⟩ := Option.ite_none_right_eq_some.mp h
    obtain ⟨n, hn, ⟨⟩⟩ := Option.map_eq_some_iff.mp hcount
    obtain ⟨m, hdigits, hvalue⟩ := exists_of_count? (fun _ => List.mem_takeWhile_imp) hn
    refine ⟨m, hvalue, ?_⟩
    rw [component, hdigits, List.append_assoc, List.singleton_append, ← heq, List.takeWhile_append_dropWhile]
  next => cases h

theorem afterDigits_component_ne {n : Option Count} (hc : isDigit c = false) (hne : c ≠ d)
    (h : afterDigits rest ≠ some d) : afterDigits (component c n ++ rest) ≠ some d := by
  cases n with
  | none => exact h
  | some n =>
      rw [component, List.append_assoc, List.singleton_append, n.afterDigits_append hc]
      exact fun he => hne (Option.some.inj he)

theorem isSome_orElseSum (m n : Option Nat) : (orElseSum m n).isSome = (m.isSome || n.isSome) := by
  cases m <;> cases n <;> rfl

theorem getD_orElseSum (m n : Option Nat) : (orElseSum m n).getD 0 = m.getD 0 + n.getD 0 := by
  cases m <;> cases n <;> simp [orElseSum]

theorem orElseSum_none (n : Option Nat) : orElseSum n none = n := by
  cases n <;> rfl

theorem inRange_of_lt {n : Option Nat} (h : maxNanoseconds < n.getD 0) : inRange n = .error .overflow :=
  if_neg (Nat.not_le.mpr h)

/-- A length need not be checked where what comes of it is out of range if the length is. -/
theorem inRange_bind {α : Type} {n : Option Nat} {f : Option Nat → Except Fault α}
    (h : maxNanoseconds < n.getD 0 → f n = .error .overflow) : (inRange n >>= f) = f n := by
  by_cases hn : n.getD 0 ≤ maxNanoseconds
  · rw [inRange, if_pos hn]
    rfl
  · rw [inRange, if_neg hn, h (Nat.not_le.mp hn)]
    rfl

theorem inRange_bind_error {α : Type} {n : Option Nat} {f : Option Nat → Except Fault α}
    (h : ∀ n, f n = .error .overflow) : (inRange n >>= f) = .error .overflow := by
  rw [inRange_bind fun _ => h n, h n]

theorem lt_orElseSum {m n : Option Nat} (h : maxNanoseconds < m.getD 0 ∨ maxNanoseconds < n.getD 0) :
    maxNanoseconds < (orElseSum m n).getD 0 := by
  rw [getD_orElseSum]
  omega

theorem inRange_bind_sum (m n : Option Nat) :
    (inRange m >>= fun m => inRange (orElseSum m n)) = inRange (orElseSum m n) :=
  inRange_bind fun hm => inRange_of_lt (lt_orElseSum (.inl hm))

def sized (size : Nat) (n : Option Count) : Option Nat :=
  n.map (·.value * size)

theorem getD_sized (size : Nat) (n : Option Count) : (sized size n).getD 0 = units size n := by
  cases n <;> rfl

theorem isSome_sized (size : Nat) (n : Option Count) : (sized size n).isSome = n.isSome := by
  cases n <;> rfl

def sizedDays (size : Nat) (n : Option Count) : Option Nat :=
  (sized size n).map (· * 86400000000000)

theorem getD_sizedDays (size : Nat) (n : Option Count) :
    (sizedDays size n).getD 0 = units size n * 86400000000000 := by
  cases n with
  | none => exact (Nat.zero_mul _).symm
  | some n => rfl

theorem isSome_sizedDays (size : Nat) (n : Option Count) : (sizedDays size n).isSome = n.isSome := by
  rw [sizedDays, Option.isSome_map, isSome_sized]

theorem date_component {size : Nat} {more : List (Char × Nat)} {before : Option Nat} {n : Option Count}
    (hc : isDigit c = false) (hheld : units size n ≤ maxDays) (hrest : afterDigits rest ≠ some c) :
    (inRange before >>= fun before => date ((c, size) :: more) before (component c n ++ rest)) =
      inRange (orElseSum before (sizedDays size n)) >>= fun before => date more before rest := by
  cases n with
  | none =>
      rw [sizedDays, sized, Option.map_none, Option.map_none, orElseSum_none]
      simp only [component, List.nil_append, date, component?_of_ne hrest]
  | some n =>
      have hn : ¬ maxDays < n.value * size := Nat.not_lt.mpr hheld
      simp only [date, component?_component n hc, if_neg hn]
      rw [← inRange_bind_sum before, bind_assoc]
      rfl

theorem exists_of_date_cons {size : Nat} {more : List (Char × Nat)} {before sum : Option Nat}
    (h : date ((c, size) :: more) before s = .ok (sum, rest)) :
    ∃ n before' s', component c n ++ s' = s ∧ units size n ≤ maxDays ∧
      date more before' s' = .ok (sum, rest) := by
  rw [date] at h
  split at h
  next => exact ⟨none, before, s, rfl, Nat.zero_le _, h⟩
  next n s' hcomponent =>
    obtain ⟨m, rfl, rfl⟩ := exists_of_component? hcomponent
    split at h
    next => cases h
    next hheld =>
      obtain ⟨before', -, hdate⟩ := bind_eq_ok_iff.mp h
      exact ⟨some m, before', s', rfl, Nat.not_lt.mp hheld, hdate⟩

def Parts.sumDate (p : Parts) : Option Nat :=
  orElseSum (orElseSum (orElseSum (sizedDays 365 p.years) (sizedDays 30 p.months)) (sizedDays 7 p.weeks))
    (sizedDays 1 p.days)

theorem optionally_component {size : Nat} {n : Option Count} (hc : isDigit c = false)
    (hrest : afterDigits rest ≠ some c) :
    optionally (units? c size) (component c n ++ rest) = (inRange (sized size n)).map fun n => (n, rest) := by
  cases n with
  | none =>
      rw [component, List.nil_append, optionally, units?, component?_of_ne hrest]
      rfl
  | some n =>
      rw [optionally, units?, component?_component n hc]
      rfl

theorem exists_of_optionally {size : Nat} {n : Option Nat} (h : optionally (units? c size) s = .ok (n, rest)) :
    ∃ m : Option Count, component c m ++ rest = s := by
  rw [optionally] at h
  split at h
  next _ _ hunits =>
    obtain ⟨⟨_, _⟩, hcomponent, ⟨⟩⟩ := Option.map_eq_some_iff.mp hunits
    obtain ⟨_, -, ⟨⟩⟩ := map_eq_ok_iff.mp h
    obtain ⟨m, -, rfl⟩ := exists_of_component? hcomponent
    exact ⟨some m, rfl⟩
  next =>
    cases h
    exact ⟨none, rfl⟩

theorem fractionNanoseconds_eq (s : List Char) (hs : ∀ c ∈ s, isDigit c = true) :
    fractionNanoseconds s = 1000000000 * digitsValue s / 10 ^ s.length := by
  have hdigits : ∀ c ∈ s ++ List.replicate 9 '0', isDigit c = true := by
    refine List.forall_mem_append.mpr ⟨hs, fun c hc => ?_⟩
    rw [List.eq_of_mem_replicate hc]
    rfl
  have hlength : ((s ++ List.replicate 9 '0').drop 9).length = s.length := by simp
  have hcut : digitsValue ((s ++ List.replicate 9 '0').drop 9) < 10 ^ s.length :=
    hlength ▸ digitsValue_lt fun c hc => hdigits c (List.mem_of_mem_drop hc)
  have hvalue : 1000000000 * digitsValue s =
      10 ^ s.length * fractionNanoseconds s + digitsValue ((s ++ List.replicate 9 '0').drop 9) := by
    calc 1000000000 * digitsValue s
      _ = digitsValue (s ++ List.replicate 9 '0') := by
        rw [digitsValue_append, digitsValue_zeros, List.length_replicate]
        omega
      _ = digitsValue ((s ++ List.replicate 9 '0').take 9 ++ (s ++ List.replicate 9 '0').drop 9) := by
        rw [List.take_append_drop]
      _ = _ := by rw [digitsValue_append, hlength, Nat.mul_comm, fractionNanoseconds]
  rw [hvalue, Nat.mul_add_div (Nat.pow_pos (by decide)), Nat.div_eq_of_lt hcut, Nat.add_zero]

theorem fraction_spelling (f : Option Fraction) :
    fraction (f.elim [] Fraction.spelling ++ 'S' :: rest) = (f.elim 0 Fraction.nanoseconds, 'S' :: rest) := by
  cases f with
  | none => rfl
  | some f =>
      rw [Option.elim_some, Fraction.spelling, List.cons_append, fraction, f.span_append_cons rfl,
        if_pos ⟨f.isMark, f.ne_nil⟩, fractionNanoseconds_eq _ f.isDigit_of_mem]
      rfl

theorem exists_of_fraction {n : Nat} (h : fraction s = (n, 'S' :: rest)) :
    ∃ f : Option Fraction, f.elim [] Fraction.spelling ++ 'S' :: rest = s := by
  cases s with
  | nil => cases h
  | cons c s =>
      rw [fraction, List.span_eq_takeWhile_dropWhile] at h
      dsimp only at h
      split at h
      next hmark =>
        rw [Prod.mk.injEq] at h
        refine ⟨some ⟨⟨s.takeWhile isDigit, hmark.2, fun _ => List.mem_takeWhile_imp⟩, c, hmark.1⟩, ?_⟩
        rw [← h.2, Option.elim_some, Fraction.spelling, List.cons_append, List.takeWhile_append_dropWhile]
      next =>
        rw [Prod.mk.injEq] at h
        exact ⟨none, h.2.symm⟩

theorem Seconds.exists_after_whole (s : Seconds) (rest : List Char) :
    ∃ c t, s.fraction.elim [] Fraction.spelling ++ 'S' :: rest = c :: t ∧ (c = 'S' ∨ c = '.' ∨ c = ',') := by
  cases s.fraction with
  | none => exact ⟨'S', rest, rfl, .inl rfl⟩
  | some f => exact ⟨f.mark, f.digits ++ 'S' :: rest, rfl, .inr f.isMark⟩

theorem seconds?_spelling (s : Seconds) : seconds? (s.spelling ++ rest) = some (s.nanoseconds, rest) := by
  have hmark : ∀ d ∈ (s.fraction.elim [] Fraction.spelling ++ 'S' :: rest).head?, isDigit d = false := by
    obtain ⟨c, t, heq, hc⟩ := s.exists_after_whole rest
    rw [heq]
    rintro d ⟨⟩
    rcases hc with rfl | rfl | rfl <;> rfl
  rw [Seconds.spelling, List.append_assoc, List.append_assoc, List.singleton_append, seconds?,
    s.whole.span_append hmark]
  dsimp only
  rw [s.whole.count?_eq, fraction_spelling, Option.bind_some, Seconds.nanoseconds, Nat.mul_comm]
  rfl

theorem exists_of_seconds? {n : Nat} (h : seconds? s = some (n, rest)) :
    ∃ t : Seconds, t.spelling ++ rest = s := by
  rw [seconds?, List.span_eq_takeWhile_dropWhile] at h
  obtain ⟨whole, hwhole, h⟩ := Option.bind_eq_some_iff.mp h
  split at h
  next nanoseconds rest' hfraction =>
    cases h
    obtain ⟨w, hdigits, -⟩ := exists_of_count? (fun _ => List.mem_takeWhile_imp) hwhole
    obtain ⟨f, htail⟩ := exists_of_fraction hfraction
    refine ⟨⟨w, f⟩, ?_⟩
    rw [Seconds.spelling, hdigits, List.append_assoc, List.append_assoc, List.singleton_append, htail,
      List.takeWhile_append_dropWhile]
  next => cases h

theorem afterDigits_seconds_ne {s : Option Seconds} (hc : c ≠ 'S' ∧ c ≠ '.' ∧ c ≠ ',') :
    afterDigits (s.elim [] Seconds.spelling) ≠ some c := by
  cases s with
  | none => rintro ⟨⟩
  | some s =>
      obtain ⟨d, t, heq, hd⟩ := s.exists_after_whole []
      have hdigit : isDigit d = false := by rcases hd with rfl | rfl | rfl <;> rfl
      rw [Option.elim_some, Seconds.spelling, heq, s.whole.afterDigits_append hdigit, Ne, Option.some.injEq]
      rintro rfl
      tauto

theorem optionally_seconds (s : Option Seconds) :
    optionally seconds? (s.elim [] Seconds.spelling) =
      (inRange (s.map Seconds.nanoseconds)).map fun n => (n, []) := by
  cases s with
  | none => rfl
  | some s =>
      have hread : seconds? (s.spelling ++ []) = some (s.nanoseconds, []) := seconds?_spelling s
      rw [List.append_nil] at hread
      rw [Option.elim_some, optionally, hread]
      rfl

theorem exists_of_optionally_seconds {n : Option Nat} (h : optionally seconds? s = .ok (n, [])) :
    ∃ t : Option Seconds, t.elim [] Seconds.spelling = s := by
  rw [optionally] at h
  split at h
  next n rest hseconds =>
    obtain ⟨_, -, ⟨⟩⟩ := map_eq_ok_iff.mp h
    obtain ⟨t, rfl⟩ := exists_of_seconds? hseconds
    exact ⟨some t, (List.append_nil _).symm⟩
  next =>
    cases h
    exact ⟨none, rfl⟩

def Clock.sum (c : Clock) : Option Nat :=
  orElseSum (orElseSum (sized 3600000000000 c.hours) (sized 60000000000 c.minutes))
    (c.seconds.map Seconds.nanoseconds)

theorem Clock.isSome_sum (c : Clock) : c.sum.isSome = c.isAny := by
  rw [sum, isSome_orElseSum, isSome_orElseSum, isSome_sized, isSome_sized, Option.isSome_map, isAny, Bool.or_assoc]

theorem Clock.getD_sum (c : Clock) : c.sum.getD 0 = c.nanoseconds := by
  have hseconds : (c.seconds.map Seconds.nanoseconds).getD 0 = c.seconds.elim 0 Seconds.nanoseconds := by
    cases c.seconds <;> rfl
  rw [sum, getD_orElseSum, getD_orElseSum, getD_sized, getD_sized, hseconds, nanoseconds, Nat.add_assoc]

/-- Three lengths and the sum of two of them are in range if the sum of all three is. -/
theorem inRange_bind_three (h m s : Option Nat) :
    (inRange h >>= fun h => inRange m >>= fun m => inRange s >>= fun s =>
      inRange (orElseSum h m) >>= fun sum => inRange (orElseSum sum s)) =
        inRange (orElseSum (orElseSum h m) s) := by
  rw [inRange_bind, inRange_bind, inRange_bind, inRange_bind_sum]
  · intro hs
    rw [inRange_bind_sum, inRange_of_lt (lt_orElseSum (.inr hs))]
  · intro hm
    refine inRange_bind_error fun s => ?_
    rw [inRange_of_lt (lt_orElseSum (.inr hm))]
    rfl
  · intro hh
    refine inRange_bind_error fun m => inRange_bind_error fun s => ?_
    rw [inRange_of_lt (lt_orElseSum (.inl hh))]
    rfl

theorem time_spelling (c : Clock) : time c.spelling = (inRange c.sum).map fun n => (n, []) := by
  have hhours : optionally (units? 'H' 3600000000000) c.spelling =
      (inRange (sized 3600000000000 c.hours)).map
        fun n => (n, component 'M' c.minutes ++ c.seconds.elim [] Seconds.spelling) :=
    optionally_component rfl (afterDigits_component_ne rfl (by decide) (afterDigits_seconds_ne (by decide)))
  have hminutes : optionally (units? 'M' 60000000000) (component 'M' c.minutes ++ c.seconds.elim [] Seconds.spelling) =
      (inRange (sized 60000000000 c.minutes)).map fun n => (n, c.seconds.elim [] Seconds.spelling) :=
    optionally_component rfl (afterDigits_seconds_ne (by decide))
  rw [time, hhours, Clock.sum, ← inRange_bind_three]
  simp only [map_eq_bind, bind_assoc, pure_bind, hminutes, optionally_seconds]

theorem exists_of_time {n : Option Nat} (h : time s = .ok (n, [])) : ∃ c : Clock, c.spelling = s := by
  simp only [time, bind_eq_ok_iff, pure_eq_ok_iff, Prod.exists] at h
  obtain ⟨hours, s₁, hhours, minutes, s₂, hminutes, seconds, s₃, hseconds, _, -, _, -, heq⟩ := h
  cases heq
  obtain ⟨hh, rfl⟩ := exists_of_optionally hhours
  obtain ⟨mm, rfl⟩ := exists_of_optionally hminutes
  obtain ⟨ss, rfl⟩ := exists_of_optionally_seconds hseconds
  exact ⟨⟨hh, mm, ss⟩, rfl⟩

theorem afterDigits_clock_ne {clock : Option Clock} (hc : c ≠ 'T') :
    afterDigits (clock.elim [] fun c => 'T' :: c.spelling) ≠ some c := by
  cases clock with
  | none => rintro ⟨⟩
  | some => exact fun h => hc (Option.some.inj h).symm

end

/-- No unit of the date has too many days. -/
def Parts.Held (p : Parts) : Prop :=
  units 365 p.years ≤ maxDays ∧ units 30 p.months ≤ maxDays ∧ units 7 p.weeks ≤ maxDays ∧
    units 1 p.days ≤ maxDays

def Parts.sum (p : Parts) : Option Nat :=
  orElseSum p.sumDate (p.clock.bind Clock.sum)

theorem Parts.isSome_sum (p : Parts) : p.sum.isSome = p.isAny := by
  have hclock : (p.clock.bind Clock.sum).isSome = p.clock.any Clock.isAny := by
    cases p.clock with
    | none => rfl
    | some c => exact c.isSome_sum
  rw [sum, isSome_orElseSum, sumDate, hclock, isAny]
  simp only [isSome_orElseSum, isSome_sizedDays, Bool.or_assoc]

theorem Parts.getD_sum (p : Parts) : p.sum.getD 0 = p.nanoseconds := by
  have hclock : (p.clock.bind Clock.sum).getD 0 = p.clock.elim 0 Clock.nanoseconds := by
    cases p.clock with
    | none => rfl
    | some c => exact c.getD_sum
  rw [sum, getD_orElseSum, hclock, sumDate, nanoseconds, date]
  simp only [getD_orElseSum, getD_sizedDays]
  omega

def counted (n : Option Nat) : Except Fault Nat :=
  inRange n >>= fun n => n.elim (.error .refused) .ok

theorem counted_some (n : Nat) : counted (some n) = if n ≤ maxNanoseconds then .ok n else .error .overflow := by
  rw [counted, inRange, Option.getD_some]
  split
  · rfl
  · rfl

theorem Parts.sum_eq_some {p : Parts} (h : p.isAny = true) : p.sum = some p.nanoseconds := by
  obtain ⟨n, hn⟩ := Option.isSome_iff_exists.mp (p.isSome_sum.trans h)
  rw [← p.getD_sum, hn, Option.getD_some]

theorem Parts.exists_of_counted {p : Parts} {n : Nat} (h : counted p.sum = .ok n) :
    p.isAny = true ∧ p.nanoseconds = n := by
  rw [← p.isSome_sum, ← p.getD_sum]
  cases hsum : p.sum with
  | none =>
      rw [hsum] at h
      cases h
  | some m =>
      rw [hsum, counted_some] at h
      split at h
      · cases h
        exact ⟨rfl, rfl⟩
      · cases h

theorem Parts.unsigned_spelling (p : Parts) (hheld : p.Held) : unsigned p.spelling = counted p.sum := by
  obtain ⟨hyears, hmonths, hweeks, hdays⟩ := hheld
  have hclock {d : Char} (hd : d ≠ 'T') : afterDigits (p.clock.elim [] fun c => 'T' :: c.spelling) ≠ some d :=
    afterDigits_clock_ne hd
  have hdate : SpanReader.date dateUnits none p.spelling.tail =
      (inRange p.sumDate).map fun n => (n, p.clock.elim [] fun c => 'T' :: c.spelling) := by
    have hnone : inRange none = .ok none := rfl
    change (Except.ok none >>= fun before => SpanReader.date dateUnits before p.spelling.tail) = _
    rw [← hnone, spelling, List.tail_cons, dateUnits, date_component rfl hyears, date_component rfl hmonths,
      date_component rfl hweeks, date_component rfl hdays (hclock (by decide))]
    · rfl
    · exact afterDigits_component_ne rfl (by decide) (hclock (by decide))
    · exact afterDigits_component_ne rfl (by decide)
        (afterDigits_component_ne rfl (by decide) (hclock (by decide)))
    · exact afterDigits_component_ne rfl (by decide) (afterDigits_component_ne rfl (by decide)
        (afterDigits_component_ne rfl (by decide) (hclock (by decide))))
  have htime : optionalTime (p.clock.elim [] fun c => 'T' :: c.spelling) =
      (inRange (p.clock.bind Clock.sum)).map fun n => (n, []) := by
    cases p.clock with
    | none => rfl
    | some c => exact time_spelling c
  rw [spelling, List.tail_cons] at hdate
  rw [spelling, unsigned, hdate, sum, counted]
  simp only [map_eq_bind, bind_assoc, pure_bind, htime]
  rw [inRange_bind, inRange_bind]
  · refine congrArg _ (funext fun n => ?_)
    cases n <;> rfl
  · intro htime
    rw [inRange_of_lt (lt_orElseSum (.inr htime))]
    rfl
  · intro hdate
    refine inRange_bind_error fun time => ?_
    rw [inRange_of_lt (lt_orElseSum (.inl hdate))]
    rfl

theorem exists_of_unsigned {n : Nat} {s : List Char} (h : unsigned s = .ok n) :
    ∃ p : Parts, p.Held ∧ p.spelling = s := by
  unfold unsigned at h
  split at h
  next s =>
    simp only [bind_eq_ok_iff, Prod.exists] at h
    obtain ⟨_, s', hdate, _, s'', htime, sum, -, hend⟩ := h
    obtain ⟨years, _, _, rfl, hyears, hdate⟩ := exists_of_date_cons hdate
    obtain ⟨months, _, _, rfl, hmonths, hdate⟩ := exists_of_date_cons hdate
    obtain ⟨weeks, _, _, rfl, hweeks, hdate⟩ := exists_of_date_cons hdate
    obtain ⟨days, _, _, rfl, hdays, hdate⟩ := exists_of_date_cons hdate
    cases hdate
    have hrest : s'' = [] := by
      split at hend
      · rfl
      · cases hend
    subst hrest
    unfold optionalTime at htime
    split at htime
    next s' =>
      obtain ⟨c, rfl⟩ := exists_of_time htime
      exact ⟨⟨years, months, weeks, days, some c⟩, ⟨hyears, hmonths, hweeks, hdays⟩, rfl⟩
    next =>
      cases htime
      exact ⟨⟨years, months, weeks, days, none⟩, ⟨hyears, hmonths, hweeks, hdays⟩, rfl⟩
  next => cases h

theorem natAbs_span (f : SpanForm) : f.span.nanoseconds.natAbs = f.nanoseconds := by
  rw [span, withSign]
  split
  · exact Int.natAbs_neg _
  · rfl

/-- A length in range has no unit with too many days, since its parts add up. -/
theorem held_of_inRange {f : SpanForm} (h : f.span.InRange) : f.Held := by
  rw [Span.InRange, natAbs_span, Parts.nanoseconds, Parts.date] at h
  rw [Parts.Held, maxDays]
  omega

theorem exists_of_behindSign {negative : Bool} {s : List Char} {d : Span} (h : behindSign negative s = .ok (some d)) :
    ∃ f : SpanForm, f.negative = negative ∧ f.toParts.spelling = s ∧ f.span = d := by
  unfold behindSign at h
  split at h
  next n hn =>
    cases h
    obtain ⟨p, hheld, rfl⟩ := exists_of_unsigned hn
    rw [p.unsigned_spelling hheld] at hn
    obtain ⟨hany, rfl⟩ := p.exists_of_counted hn
    exact ⟨⟨p, negative, hany⟩, rfl, rfl, rfl⟩
  next => cases h
  next => cases h

theorem behindSign_spelling {f : SpanForm} (h : f.Held) : behindSign f.negative f.toParts.spelling =
    if f.span.InRange then .ok (some f.span) else .error ⟨⟩ := by
  have hrange : f.span.InRange ↔ f.nanoseconds ≤ maxNanoseconds := by
    rw [Span.InRange, natAbs_span]
    rfl
  rw [behindSign, f.unsigned_spelling h, Parts.sum_eq_some f.isAny, counted_some]
  by_cases hle : f.nanoseconds ≤ maxNanoseconds
  · rw [if_pos hle, if_pos (hrange.mpr hle)]
    rfl
  · rw [if_neg hle, if_neg (hrange.not.mpr hle)]

theorem read_spelling_eq {f : SpanForm} {text : String} (h : f.spelling = trim text.toList) :
    Span.read text = behindSign f.negative f.toParts.spelling := by
  rw [Span.read, ← h, spelling]
  cases f.negative <;> rfl

theorem exists_of_read {text : String} {d : Span} (h : Span.read text = .ok (some d)) :
    ∃ f : SpanForm, f.spelling = trim text.toList ∧ f.span = d := by
  unfold Span.read at h
  split at h
  next s heq =>
    obtain ⟨f, hnegative, rfl, hspan⟩ := exists_of_behindSign h
    refine ⟨f, ?_, hspan⟩
    rw [spelling, hnegative, heq]
    rfl
  next =>
    obtain ⟨f, hnegative, hspelling, hspan⟩ := exists_of_behindSign h
    refine ⟨f, ?_, hspan⟩
    rw [spelling, hnegative, ← hspelling]
    rfl

end SpanForm

open SpanForm

/-- A text that spells a duration in range is read as this duration, and nothing else is read. The parts of a
duration add up, so that none of them nor any sum of them is out of range if the duration is not. -/
theorem Span.read_spelling (text : String) :
    (∀ f : SpanForm, f.spelling = trim text.toList → f.span.InRange → Span.read text = .ok (some f.span)) ∧
      ∀ d, Span.read text = .ok (some d) → ∃ f : SpanForm, f.spelling = trim text.toList ∧ f.span = d := by
  constructor
  · intro f hspelling hrange
    rw [read_spelling_eq hspelling, behindSign_spelling (held_of_inRange hrange), if_pos hrange]
  · exact fun d => exists_of_read

/-- A text that spells a duration out of range stops the program, unless one unit of its date alone is too long,
for which the text is refused. -/
theorem Span.read_overflow {f : SpanForm} {text : String} (hspelling : f.spelling = trim text.toList)
    (hheld : f.Held) (hrange : ¬ f.span.InRange) : Span.read text = .error ⟨⟩ := by
  rw [read_spelling_eq hspelling, behindSign_spelling hheld, if_neg hrange]

def SpanForm.everyPart : SpanForm where
  years := some ⟨⟨"1".toList, by decide, by decide⟩, by decide⟩
  months := some ⟨⟨"02".toList, by decide, by decide⟩, by decide⟩
  weeks := some ⟨⟨"3".toList, by decide, by decide⟩, by decide⟩
  days := some ⟨⟨"4".toList, by decide, by decide⟩, by decide⟩
  clock := some {
    hours := some ⟨⟨"5".toList, by decide, by decide⟩, by decide⟩
    minutes := some ⟨⟨"6".toList, by decide, by decide⟩, by decide⟩
    seconds := some {
      whole := ⟨⟨"7".toList, by decide, by decide⟩, by decide⟩
      fraction := some ⟨⟨"8901234567".toList, by decide, by decide⟩, ',', by decide⟩ } }
  negative := true
  isAny := rfl

theorem Span.read_spelling_everyPart :
    SpanForm.everyPart.spelling = trim "\t-P1Y02M3W4DT5H6M7,8901234567S ".toList ∧
      SpanForm.everyPart.span.InRange ∧
      Span.read "\t-P1Y02M3W4DT5H6M7,8901234567S " = .ok (some ⟨-38898367890123456⟩) :=
  have hspelling : SpanForm.everyPart.spelling = trim "\t-P1Y02M3W4DT5H6M7,8901234567S ".toList := by decide
  have hrange : SpanForm.everyPart.span.InRange := by decide
  ⟨hspelling, hrange, (read_spelling _).1 SpanForm.everyPart hspelling hrange⟩

example : Span.read "PT1.S" = .ok none ∧ Span.read "P1M1Y" = .ok none ∧ Span.read "PT" = .ok none := by decide

end Phrasebook
