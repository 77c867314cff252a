import Phrasebook.Format.Span
import Phrasebook.Proofs.Format.Figures

namespace Phrasebook

open Text

namespace Format

def Run.Percentless : Run → Prop
  | .literal s => '%' ∉ s
  | .field c _ => c ≠ '%'

theorem runs_percentless {s : List Char} (h : '%' ∉ s) : ∀ r ∈ runs s, r.Percentless := by
  fun_induction runs s with
  | case1 => rintro r ⟨⟩
  | case2 c s _ _ _ ih =>
      have hs := List.not_mem_of_not_mem_cons h
      refine List.forall_mem_cons.mpr ⟨fun hr => hs ((List.takeWhile_prefix _).subset hr), ih fun hr => hs ?_⟩
      exact (List.dropWhile_suffix _).subset (List.mem_of_mem_tail hr)
  | case3 s _ _ _ ih =>
      have hs := List.not_mem_of_not_mem_cons h
      exact List.forall_mem_cons.mpr ⟨fun hr => hs (List.mem_of_mem_take hr), ih fun hr => hs (List.mem_of_mem_tail hr)⟩
  | case4 c s _ _ _ _ ih =>
      rw [List.mem_cons, not_or] at h
      exact List.forall_mem_cons.mpr ⟨Ne.symm h.1, ih fun hr => h.2 ((List.dropWhile_suffix _).subset hr)⟩

theorem not_mem_digits (n width : Nat) : '%' ∉ digits n width :=
  not_mem_padLeft (not_mem_of_figures (decimalDigits_figures n))

theorem not_mem_year (count : Nat) (y : Int) : '%' ∉ year count y := by
  unfold year
  split
  · exact not_mem_digits _ _
  · exact not_mem_digits _ _
  · split
    · exact List.not_mem_cons_of_ne_of_not_mem (by decide) (not_mem_digits _ _)
    · exact not_mem_digits _ _

theorem not_mem_offset (count : Nat) (seconds : Int) : '%' ∉ offset count seconds := by
  have hsign : '%' ≠ if seconds < 0 then '-' else '+' := by split <;> decide
  refine List.not_mem_cons_of_ne_of_not_mem hsign ?_
  split
  · exact not_mem_digits _ _
  · exact not_mem_digits _ _
  · simp [not_mem_digits]

theorem not_mem_name {names : List String} (h : ∀ name ∈ names, '%' ∉ name.toList) (i : Nat) :
    '%' ∉ ((names[i]?).getD "").toList := by
  cases hi : names[i]? with
  | none => decide
  | some name => exact h name (List.mem_of_getElem? hi)

theorem not_mem_writeField {out : List Char} (hout : '%' ∉ out) {c : Char} (hc : c ≠ '%') (m : Moment) (count : Nat) :
    '%' ∉ writeField m out c count := by
  have hmonth : ∀ i, '%' ∉ ((monthNames[i]?).getD "").toList := not_mem_name (by decide)
  have hweekday : ∀ i, '%' ∉ ((weekdayNames[i]?).getD "").toList := not_mem_name (by decide)
  have happend {s : List Char} (hs : '%' ∉ s) : '%' ∉ out ++ s := by
    rw [List.mem_append, not_or]
    exact ⟨hout, hs⟩
  unfold writeField
  dsimp only
  split
  · split
    · exact happend (not_mem_digits _ _)
    · split
      · exact happend fun h => hweekday _ (List.mem_of_mem_take h)
      · exact happend (hweekday _)
  · split
    · exact happend (not_mem_digits _ _)
    · split
      · exact happend fun h => hmonth _ (List.mem_of_mem_take h)
      · exact happend (hmonth _)
  · exact happend (not_mem_year _ _)
  · exact happend (not_mem_digits _ _)
  · exact happend (not_mem_digits _ _)
  · exact happend (not_mem_digits _ _)
  · exact happend (not_mem_digits _ _)
  · exact happend (not_mem_digits _ _)
  · split
    · exact fun h => hout ((List.dropLast_prefix out).subset h)
    · exact happend (not_mem_rdropWhile (not_mem_digits _ _))
  · refine happend fun h => ?_
    have := List.mem_of_mem_take h
    split at this <;> simp at this
  · exact happend (not_mem_offset _ _)
  · exact happend (not_mem_offset _ _)
  · exact hout
  · exact happend fun h => hc (List.eq_of_mem_replicate h).symm

theorem not_mem_writeRuns {rs : List Run} (hrs : ∀ r ∈ rs, r.Percentless) (m : Moment) {out : List Char}
    (hout : '%' ∉ out) : '%' ∉ writeRuns m out rs := by
  induction rs generalizing out with
  | nil => exact hout
  | cons r rs ih =>
      rw [List.forall_mem_cons] at hrs
      obtain ⟨hr, hrs⟩ := hrs
      cases r with
      | literal s =>
          refine ih hrs ?_
          rw [List.mem_append, not_or]
          exact ⟨hout, hr⟩
      | field c count => exact ih hrs (not_mem_writeField hout hr m count)

theorem not_mem_customMoment {format : String} (h : '%' ∉ format.toList) (m : Moment) :
    '%' ∉ (customMoment m format).toList := by
  rw [customMoment, String.toList_ofList]
  exact not_mem_writeRuns (runs_percentless h) m (by rintro ⟨⟩)

section

variable {culture : Culture} (hculture : culture.Percentless)

include hculture

theorem not_mem_standardMoment? {letter : Char} {format : String} (h : standardMoment? culture letter = some format) :
    '%' ∉ format.toList := by
  have hdate := hculture culture.shortDate (by simp [Culture.texts])
  have hlong := hculture culture.longDate (by simp [Culture.texts])
  have htime := hculture culture.shortTime (by simp [Culture.texts])
  have hlongTime := hculture culture.longTime (by simp [Culture.texts])
  unfold standardMoment? at h
  split at h <;> cases h <;> first | decide | simp [*]

theorem not_mem_plainMoment (m : Moment) : '%' ∉ (plainMoment culture m).toList := by
  have hdate := hculture culture.shortDate (by simp [Culture.texts])
  have htime := hculture culture.longTime (by simp [Culture.texts])
  exact not_mem_customMoment (by simp [hdate, htime]) m

theorem not_mem_writeMoment {format : String} (hformat : '%' ∉ format.toList) {m : Moment} {s : String}
    (h : writeMoment culture format m = .ok s) : '%' ∉ s.toList := by
  unfold writeMoment at h
  split at h
  · cases h
    exact not_mem_customMoment (by decide) _
  · split at h
    next hstandard =>
      cases h
      exact not_mem_customMoment (not_mem_standardMoment? hculture hstandard) m
    next => cases h
  · cases h
    exact not_mem_customMoment hformat m

omit hculture in
theorem not_mem_spanField? {p : Span.Parts} {c : Char} {count : Nat} {s : List Char}
    (h : spanField? p c count = some s) : '%' ∉ s := by
  unfold spanField? at h
  split at h <;> cases h
  case h_6 => exact not_mem_rdropWhile (not_mem_digits _ _)
  all_goals exact not_mem_digits _ _

omit hculture in
theorem not_mem_spanRuns? {p : Span.Parts} {rs : List Run} (hrs : ∀ r ∈ rs, r.Percentless) {s : List Char}
    (h : spanRuns? p rs = some s) : '%' ∉ s := by
  induction rs generalizing s with
  | nil =>
      cases h
      rintro ⟨⟩
  | cons r rs ih =>
      rw [List.forall_mem_cons] at hrs
      cases r with
      | literal t =>
          obtain ⟨rest, hrest, rfl⟩ := Option.map_eq_some_iff.mp h
          rw [List.mem_append, not_or]
          exact ⟨hrs.1, ih hrs.2 hrest⟩
      | field c count =>
          obtain ⟨field, hfield, h⟩ := Option.bind_eq_some_iff.mp h
          obtain ⟨rest, hrest, rfl⟩ := Option.map_eq_some_iff.mp h
          rw [List.mem_append, not_or]
          exact ⟨not_mem_spanField? hfield, ih hrs.2 hrest⟩

omit hculture in
theorem not_mem_spanText (d : Span) : '%' ∉ d.text.toList := by
  have hdays (n : Nat) : '%' ∉ Nat.toDigits 10 n := not_mem_of_figures (decimalDigits_figures n)
  have hpadded := not_mem_padded
  unfold Span.text
  dsimp only
  split <;> split <;> split <;> simp [hdays, hpadded]

omit hculture in
theorem not_mem_sign (d : Span) : '%' ∉ sign d := by
  unfold sign
  split <;> decide

theorem not_mem_shortSpan (d : Span) : '%' ∉ shortSpan culture d := by
  have hpoint := hculture culture.decimalSeparator (by simp [Culture.texts])
  have hticks : '%' ∉ ((subsecond d.parts.nanoseconds 7).reverse.dropWhile (· == '0')).reverse :=
    not_mem_rdropWhile (not_mem_digits _ _)
  unfold shortSpan
  dsimp only
  split <;> split <;> simp [not_mem_sign, not_mem_digits, hpoint, hticks]

theorem not_mem_longSpan (d : Span) : '%' ∉ longSpan culture d := by
  have hpoint := hculture culture.decimalSeparator (by simp [Culture.texts])
  have hticks (n : Nat) : '%' ∉ subsecond n 7 := not_mem_digits _ _
  simp [longSpan, not_mem_sign, not_mem_digits, hpoint, hticks]

theorem not_mem_writeSpan {format : String} (hformat : '%' ∉ format.toList) {d : Span} {s : String}
    (h : writeSpan culture format d = .ok s) : '%' ∉ s.toList := by
  unfold writeSpan at h
  split at h
  · cases h
    exact not_mem_spanText d
  · cases h
    exact not_mem_spanText d
  · cases h
    exact not_mem_spanText d
  · cases h
    rw [String.toList_ofList]
    exact not_mem_shortSpan hculture d
  · cases h
    rw [String.toList_ofList]
    exact not_mem_longSpan hculture d
  · split at h
    next t ht =>
      cases h
      rw [String.toList_ofList]
      exact not_mem_spanRuns? (runs_percentless hformat) ht
    next => cases h

end

theorem not_mem_momentText (m : Moment) : '%' ∉ m.text.toList := by
  have hpadded := not_mem_padded
  have hyear (y : Int) : '%' ∉ (Moment.yearText y).toList := by
    unfold Moment.yearText
    split
    · exact hpadded _ _
    · split <;> simp [hpadded]
  simp [Moment.text, hpadded, hyear]

end Format

theorem Roman.not_mem_write {n : Int} {s : String} (h : Roman.write n = .ok s) : '%' ∉ s.toList :=
  fun hs => absurd (isAlpha_of_mem_write h _ hs) (by decide)

end Phrasebook
