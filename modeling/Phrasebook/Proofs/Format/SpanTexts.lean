import Phrasebook.Format.Basic
import Phrasebook.Proofs.Calendar.SpanUnits
import Phrasebook.Proofs.Text.Digits
import Phrasebook.Proofs.Text.Pieces
import Phrasebook.Value.Property

namespace Phrasebook

open Text

namespace Span

structure Counts where
  days : Int64
  hours : Int64
  minutes : Int64
  seconds : Int64
  milliseconds : Int64

/-- The counts make up all milliseconds of a length, none against its sign and none past the next unit. -/
structure Counts.MakeUp (c : Counts) (d : Span) : Prop where
  sum : 86400000 * c.days.toInt + 3600000 * c.hours.toInt + 60000 * c.minutes.toInt + 1000 * c.seconds.toInt +
    c.milliseconds.toInt = d.nanoseconds.tdiv 1000000
  sign : ∀ n ∈ [c.days, c.hours, c.minutes, c.seconds, c.milliseconds], n = 0 ∨ n.toInt.sign = d.nanoseconds.sign
  hours : c.hours.toInt.natAbs < 24
  minutes : c.minutes.toInt.natAbs < 60
  seconds : c.seconds.toInt.natAbs < 60
  milliseconds : c.milliseconds.toInt.natAbs < 1000

structure Counts.AreProperties (c : Counts) (d : Span) : Prop where
  days : (Value.span d).property? "Days" = some (.integer c.days)
  hours : (Value.span d).property? "Hours" = some (.integer c.hours)
  minutes : (Value.span d).property? "Minutes" = some (.integer c.minutes)
  seconds : (Value.span d).property? "Seconds" = some (.integer c.seconds)
  milliseconds : (Value.span d).property? "Milliseconds" = some (.integer c.milliseconds)

def counts (d : Span) : Counts where
  days := Int64.ofInt d.days
  hours := Int64.ofInt (d.hours.tmod 24)
  minutes := Int64.ofInt (d.minutes.tmod 60)
  seconds := Int64.ofInt (d.seconds.tmod 60)
  milliseconds := Int64.ofInt (d.milliseconds.tmod 1000)

theorem property?_span (d : Span) (name key : String) (h : lowerAscii name.toList = key.toList) :
    (Value.span d).property? name = Property.ofSpan? d key := by
  rw [Value.property?, h, String.ofList_toList]

theorem counts_areProperties (d : Span) : d.counts.AreProperties d where
  days := property?_span d "Days" "days" rfl
  hours := property?_span d "Hours" "hours" rfl
  minutes := property?_span d "Minutes" "minutes" rfl
  seconds := property?_span d "Seconds" "seconds" rfl
  milliseconds := property?_span d "Milliseconds" "milliseconds" rfl

theorem toInt_ofInt_withSign {negative : Bool} {n : Nat} (h : n < 0x8000000000000000) :
    (Int64.ofInt (withSign negative n)).toInt = withSign negative n := by
  refine Int64.toInt_ofInt_of_le ?_ ?_
  · rw [withSign]
    split <;> omega
  · rw [withSign]
    split <;> omega

theorem counts_eq (d : Span) : d.counts =
    let count n := Int64.ofInt (withSign d.isNegative n)
    let milliseconds := d.nanoseconds.natAbs / 1000000
    let seconds := milliseconds / 1000
    let minutes := seconds / 60
    let hours := minutes / 60
    ⟨count (hours / 24), count (hours % 24), count (minutes % 60), count (seconds % 60),
      count (milliseconds % 1000)⟩ := by
  simp only [Nat.div_div_eq_div_mul, ← whole_eq, ← tmod_withSign]
  rfl

theorem zero_or_sign_withSign {d : Span} {n : Nat} (hlt : n < 0x8000000000000000) (hle : n ≤ d.nanoseconds.natAbs) :
    Int64.ofInt (withSign d.isNegative n) = 0 ∨
      (Int64.ofInt (withSign d.isNegative n)).toInt.sign = d.nanoseconds.sign := by
  rw [toInt_ofInt_withSign hlt]
  rcases Nat.eq_zero_or_pos n with rfl | hpos
  · refine .inl ?_
    cases d.isNegative <;> rfl
  · refine .inr ?_
    rw [isNegative, withSign]
    rcases Int.lt_or_le d.nanoseconds 0 with h | h
    · rw [if_pos (decide_eq_true h), Int.sign_eq_neg_one_of_neg h, Int.sign_eq_neg_one_of_neg (by omega)]
    · rw [if_neg (by simpa using h), Int.sign_eq_one_of_pos (by omega), Int.sign_eq_one_of_pos (by omega)]

theorem counts_makeUp {d : Span} (h : d.InRange) : d.counts.MakeUp d := by
  -- in range no count leaves sixty-four bits, so that all is arithmetic on the magnitude
  rw [InRange] at h
  rw [counts_eq]
  have hwhole : d.nanoseconds.tdiv 1000000 = withSign d.isNegative (d.nanoseconds.natAbs / 1000000) :=
    d.whole_eq 1000000
  constructor
  case sum =>
    dsimp only
    rw [hwhole]
    repeat rw [toInt_ofInt_withSign (by omega)]
    cases d.isNegative with
    | false =>
        simp only [withSign, Bool.false_eq_true, if_false]
        omega
    | true =>
        simp only [withSign, if_true]
        omega
  case sign =>
    simp only [List.forall_mem_cons]
    refine ⟨?_, ?_, ?_, ?_, ?_, List.forall_mem_nil _⟩
    all_goals exact zero_or_sign_withSign (by omega) (by omega)
  all_goals
    dsimp only
    rw [toInt_ofInt_withSign (by omega), natAbs_withSign]
    exact Nat.mod_lt _ (by decide)

namespace Figures

def daysAndHours? (s : List Char) : Option (Nat × Nat) :=
  match splitOn '.' s with
  | [hours] => some (0, digitsValue hours)
  | [days, hours] => some (digitsValue days, digitsValue hours)
  | _ => none

def secondsAndTicks? (s : List Char) : Option (Nat × Nat) :=
  match splitOn '.' s with
  | [seconds] => some (digitsValue seconds, 0)
  | [seconds, ticks] => some (digitsValue seconds, digitsValue ticks)
  | _ => none

/-- Reads `[-][d.]hh:mm:ss[.fffffff]`. -/
def ofText? (text : String) : Option Figures :=
  match splitOn ':' (readSign text.toList).2 with
  | [first, minutes, last] =>
    (daysAndHours? first).bind fun (days, hours) =>
      (secondsAndTicks? last).map fun (seconds, ticks) =>
        ⟨(readSign text.toList).1, days, hours, digitsValue minutes, seconds, ticks⟩
  | _ => none

/-- Reads `[-]d:hh:mm:ss`, the decimal separator of the culture and `fffffff`. -/
def ofLongText? (culture : Culture) (text : String) : Option Figures :=
  let (negative, s) := readSign text.toList
  match splitOn ':' (s.take (s.length - (culture.decimalSeparator.toList.length + 7))) with
  | [days, hours, minutes, seconds] =>
    some ⟨negative, digitsValue days, digitsValue hours, digitsValue minutes, digitsValue seconds,
      digitsValue (s.drop (s.length - 7))⟩
  | _ => none

end Figures

def daysText (n : Nat) : List Char :=
  if n = 0 then [] else Format.digits n 1 ++ ['.']

def ticksText (n : Nat) : List Char :=
  if n = 0 then [] else '.' :: Format.digits n 7

theorem digits_one (n : Nat) : Format.digits n 1 = decimalDigits n := by
  have : 0 < (decimalDigits n).length := List.length_pos_iff.mpr Nat.toDigits_ne_nil
  rw [Format.digits, padLeft, Nat.sub_eq_zero_of_le this, List.replicate_zero, List.nil_append]

theorem toList_text (d : Span) : d.text.toList =
    Format.sign d ++ (daysText d.parts.days ++ Format.digits d.parts.hours 2 ++
      ':' :: (Format.digits d.parts.minutes 2 ++ ':' :: (Format.digits d.parts.seconds 2 ++
        ticksText (d.parts.nanoseconds / 100)))) := by
  have hdays : (toString d.parts.days).toList = Format.digits d.parts.days 1 := by
    rw [Nat.toString_eq_repr, Nat.toList_repr, digits_one]
    rfl
  simp only [text, padded, String.toList_append, String.toList_ofList, apply_ite String.toList, hdays, Format.sign,
    daysText, ticksText, Format.digits]
  simp

theorem isDigit_of_mem_digits {n width : Nat} : ∀ c ∈ Format.digits n width, isDigit c = true :=
  fun _ => isDigit_of_mem_padded

theorem not_mem_digits {c : Char} (hc : isDigit c = false) (n width : Nat) : c ∉ Format.digits n width :=
  not_mem_of_isDigit hc isDigit_of_mem_digits

theorem colon_not_mem_digits (n width : Nat) : ':' ∉ Format.digits n width :=
  not_mem_digits rfl n width

theorem splitOn_append_digits {c : Char} (hc : isDigit c = false) (n width : Nat) (rest : List Char) :
    splitOn c (Format.digits n width ++ c :: rest) = Format.digits n width :: splitOn c rest :=
  splitOn_append (not_mem_digits hc n width) rest

theorem splitOn_digits {c : Char} (hc : isDigit c = false) (n width : Nat) :
    splitOn c (Format.digits n width) = [Format.digits n width] :=
  splitOn_of_not_mem (not_mem_digits hc n width)

theorem digitsValue_digits (n width : Nat) : digitsValue (Format.digits n width) = n :=
  digitsValue_padded width n

theorem daysAndHours?_eq (n hours : Nat) :
    Figures.daysAndHours? (daysText n ++ Format.digits hours 2) = some (n, hours) := by
  rw [Figures.daysAndHours?, daysText]
  split_ifs with h
  · rw [List.nil_append, splitOn_digits rfl, h]
    simp only [digitsValue_digits]
  · rw [List.append_assoc, List.singleton_append, splitOn_append_digits rfl, splitOn_digits rfl]
    simp only [digitsValue_digits]

theorem secondsAndTicks?_eq (seconds n : Nat) :
    Figures.secondsAndTicks? (Format.digits seconds 2 ++ ticksText n) = some (seconds, n) := by
  rw [Figures.secondsAndTicks?, ticksText]
  split_ifs with h
  · rw [List.append_nil, splitOn_digits rfl, h]
    simp only [digitsValue_digits]
  · rw [splitOn_append_digits rfl, splitOn_digits rfl]
    simp only [digitsValue_digits]

theorem not_mem_daysText (n : Nat) : ':' ∉ daysText n := by
  rw [daysText]
  split_ifs
  · exact List.not_mem_nil
  · simp [colon_not_mem_digits]

theorem not_mem_ticksText (n : Nat) : ':' ∉ ticksText n := by
  rw [ticksText]
  split_ifs
  · exact List.not_mem_nil
  · simp [colon_not_mem_digits]

theorem readSign_digits (d : Span) (n width : Nat) (rest : List Char) :
    readSign (Format.sign d ++ (Format.digits n width ++ rest)) = (d.isNegative, Format.digits n width ++ rest) :=
  readSign_append (padded_ne_nil width n) isDigit_of_mem_digits d.isNegative rest

theorem readSign_daysText (d : Span) (days hours : Nat) (rest : List Char) :
    readSign (Format.sign d ++ (daysText days ++ Format.digits hours 2 ++ rest)) =
      (d.isNegative, daysText days ++ Format.digits hours 2 ++ rest) := by
  rw [daysText]
  split_ifs
  · exact readSign_digits d hours 2 rest
  · rw [List.append_assoc, List.append_assoc]
    exact readSign_digits d days 1 _

theorem ofText?_text (d : Span) : Figures.ofText? d.text = some d.figures := by
  have hfirst : ':' ∉ daysText d.parts.days ++ Format.digits d.parts.hours 2 := by
    simp [not_mem_daysText, colon_not_mem_digits]
  have hlast : ':' ∉ Format.digits d.parts.seconds 2 ++ ticksText (d.parts.nanoseconds / 100) := by
    simp [not_mem_ticksText, colon_not_mem_digits]
  rw [Figures.ofText?, toList_text, readSign_daysText, splitOn_append hfirst, splitOn_append_digits rfl,
    splitOn_of_not_mem hlast]
  simp only [daysAndHours?_eq, secondsAndTicks?_eq, digitsValue_digits]
  rfl

theorem subsecond_eq {n : Nat} (h : n < 1000000000) : Format.subsecond n 7 = Format.digits (n / 100) 7 := by
  rw [Format.subsecond, Nat.min_eq_left (by omega)]

theorem parts_nanoseconds_lt (d : Span) : d.parts.nanoseconds < 1000000000 :=
  Nat.mod_lt _ (by decide)

theorem longSpan_eq (culture : Culture) (d : Span) : Format.longSpan culture d =
    Format.sign d ++ (Format.digits d.parts.days 1 ++ (':' :: (Format.digits d.parts.hours 2 ++
      ':' :: (Format.digits d.parts.minutes 2 ++ ':' :: Format.digits d.parts.seconds 2)) ++
        (culture.decimalSeparator.toList ++ Format.digits (d.parts.nanoseconds / 100) 7))) := by
  rw [Format.longSpan, subsecond_eq d.parts_nanoseconds_lt]
  simp

theorem ofLongText?_longSpan (culture : Culture) (d : Span) :
    Figures.ofLongText? culture (String.ofList (Format.longSpan culture d)) = some d.figures := by
  have hticks : (Format.digits (d.parts.nanoseconds / 100) 7).length = 7 :=
    length_padded (by decide) (by have := d.parts_nanoseconds_lt; omega)
  rw [Figures.ofLongText?, String.toList_ofList, longSpan_eq, readSign_digits]
  dsimp only
  rw [← List.append_assoc, List.take_left' (by simp [hticks]; omega), ← List.append_assoc,
    List.drop_left' (by simp [hticks]; omega)]
  rw [splitOn_append_digits rfl, splitOn_append_digits rfl, splitOn_append_digits rfl, splitOn_digits rfl]
  simp only [digitsValue_digits]
  rfl

theorem text_eq_of_figures_eq {d e : Span} (h : d.figures = e.figures) : d.text = e.text := by
  simp only [figures, Figures.mk.injEq] at h
  obtain ⟨hnegative, hdays, hhours, hminutes, hseconds, hticks⟩ := h
  rw [← String.toList_inj, toList_text, toList_text, Format.sign, Format.sign, hnegative, hdays, hhours, hminutes,
    hseconds, hticks]

theorem text_eq_iff (d e : Span) : d.text = e.text ↔ d.figures = e.figures := by
  refine ⟨fun h => ?_, text_eq_of_figures_eq⟩
  have hfigures := d.ofText?_text
  rw [h, e.ofText?_text] at hfigures
  exact (Option.some.inj hfigures).symm

/-- Properties lose what is less than a millisecond, texts what is less than a tick, and both keep all else. -/
theorem split_without_loss {d : Span} (h : d.InRange) :
    (∃ c : Counts, c.AreProperties d ∧ c.MakeUp d) ∧
      (∀ e : Span, d.text = e.text ↔
        (d.nanoseconds < 0 ↔ e.nanoseconds < 0) ∧ d.nanoseconds.natAbs / 100 = e.nanoseconds.natAbs / 100) ∧
      ∃ f : Figures, f.Tells d ∧ Figures.ofText? d.text = some f ∧ ∀ culture, ∃ text,
        (Value.span d).formatted culture "G" = .ok text ∧ Figures.ofLongText? culture text = some f := by
  refine ⟨⟨d.counts, d.counts_areProperties, counts_makeUp h⟩, fun e => ?_, d.figures, d.figures_tells, d.ofText?_text,
    fun culture => ⟨_, rfl, ofLongText?_longSpan culture d⟩⟩
  rw [text_eq_iff, figures_eq_iff, isNegative, isNegative, decide_eq_decide]

theorem split_without_loss_negative :
    (⟨-90061123456789⟩ : Span).InRange ∧
      (∃ c : Counts, c.AreProperties ⟨-90061123456789⟩ ∧ c.MakeUp ⟨-90061123456789⟩) ∧
      (⟨-90061123456789⟩ : Span).text = (⟨-90061123456700⟩ : Span).text ∧
      (⟨-90061123456789⟩ : Span).text ≠ (⟨90061123456789⟩ : Span).text ∧
      ∃ f : Figures, f.Tells ⟨-90061123456789⟩ ∧ Figures.ofText? "-1.01:01:01.1234567" = some f := by
  have hrange : (⟨-90061123456789⟩ : Span).InRange := by decide
  have htext : (⟨-90061123456789⟩ : Span).text = "-1.01:01:01.1234567" := by decide
  obtain ⟨hcounts, hiff, f, htells, hread, -⟩ := split_without_loss hrange
  rw [htext] at hread
  exact ⟨hrange, hcounts, (hiff _).mpr (by decide), fun h => absurd ((hiff _).mp h) (by decide), f, htells, hread⟩

end Span

end Phrasebook
