import Phrasebook.Proofs.Condition.Letters
import Phrasebook.Proofs.Condition.Splitting
import Phrasebook.Proofs.Results
import Phrasebook.Proofs.Text.Pieces

namespace Phrasebook

open Text

namespace Range

variable {s : List Char} {bounds : Interval (List Char)} {r : Range}

def marks : List Char :=
  ['[', ']', '(', ')', ',', '<', '>', '=']

/-- Whether a text begins with a bracket or with a comparison, and what else there is in it besides
blanks comes from the bounds. -/
structure Delimits (s : List Char) (bounds : Interval (List Char)) : Prop where
  head : ∃ c t, s = c :: t ∧ c ∈ marks ∧ c ≠ ',' ∧ c ≠ '='
  letters : ∀ c ∈ s, isBlank c = true ∨ c ∈ marks ∨ ∃ x, (x ∈ bounds.min ∨ x ∈ bounds.max) ∧ c ∈ x

theorem mem_of_bound {c : Char} (hc : c ∈ s) : isBlank c = true ∨ ∃ x ∈ bound s, c ∈ x := by
  rw [or_iff_not_imp_left, Bool.not_eq_true]
  intro hblank
  have hmem := mem_trim hblank hc
  refine ⟨trim s, ?_, hmem⟩
  rw [bound, if_neg (List.ne_nil_of_mem hmem)]
  rfl

theorem isBracket_mem {c : Char} (h : isBracket c = true) : c ∈ marks ∧ c ≠ ',' ∧ c ≠ '=' := by
  simp only [isBracket, Bool.or_eq_true, beq_iff_eq] at h
  rcases h with ((rfl | rfl) | rfl) | rfl <;> decide

theorem delimits_of_bracketed? (h : bracketed? s = some bounds) : Delimits (trim s) bounds := by
  unfold bracketed? at h
  split at h
  next => cases h
  next opening rest htrim =>
    split at h
    next low tail closing hsplit hlast =>
      obtain ⟨⟨hopening, hclosing, hne, -⟩, ⟨⟩⟩ := Option.ite_none_right_eq_some.mp h
      have hrest := eq_append_of_splitOnce hsplit
      have htail : tail.dropLast ++ [closing] = tail := by
        rw [hrest, List.getLast?_append_of_ne_nil _ hne] at hlast
        exact List.dropLast_append_getLast? closing hlast
      rw [htrim]
      refine ⟨⟨opening, rest, rfl, isBracket_mem hopening⟩, fun c hc => ?_⟩
      rw [hrest, ← htail] at hc
      simp only [List.mem_cons, List.mem_append, List.not_mem_nil, or_false] at hc
      rcases hc with rfl | (hc | rfl) | hc | rfl
      · exact .inr (.inl (isBracket_mem hopening).1)
      · rcases mem_of_bound hc with hblank | ⟨x, hx, hcx⟩
        · exact .inl hblank
        · exact .inr (.inr ⟨x, .inl hx, hcx⟩)
      · exact .inr (.inl (by decide))
      · rcases mem_of_bound hc with hblank | ⟨x, hx, hcx⟩
        · exact .inl hblank
        · exact .inr (.inr ⟨x, .inr hx, hcx⟩)
      · exact .inr (.inl (isBracket_mem hclosing).1)
    next => cases h

theorem delimits_of_half? (h : half? s = some bounds) : Delimits (trim s) bounds := by
  unfold half? at h
  split at h
  next => cases h
  next sign rest htrim =>
    rw [htrim]
    have hlimit {limit : List Char} {c : Char} (hc : c ∈ limit) : isBlank c = true ∨ c ∈ marks ∨ c ∈ trim limit := by
      cases hblank : isBlank c with
      | true => exact .inl rfl
      | false => exact .inr (.inr (mem_trim hblank hc))
    have hsign {limit : List Char} {inclusive : Bool}
        (hrest : ∀ c ∈ rest, isBlank c = true ∨ c ∈ marks ∨ c ∈ limit)
        (h : (if limit = [] ∨ '\n' ∈ limit then none
          else if sign = '>' then some ⟨some limit, none, inclusive, inclusive⟩
          else if sign = '<' then some ⟨none, some limit, inclusive, inclusive⟩
          else none) = some bounds) : Delimits (sign :: rest) bounds := by
      have hbounds : (bounds.min = some limit ∨ bounds.max = some limit) ∧ (sign = '>' ∨ sign = '<') := by
        split at h
        · cases h
        · split at h
          next hsign =>
            cases h
            exact ⟨.inl rfl, .inl hsign⟩
          next =>
            obtain ⟨hsign, ⟨⟩⟩ := Option.ite_none_right_eq_some.mp h
            exact ⟨.inr rfl, .inr hsign⟩
      have hmarks : sign ∈ marks ∧ sign ≠ ',' ∧ sign ≠ '=' := by
        rcases hbounds.2 with rfl | rfl <;> decide
      refine ⟨⟨sign, rest, rfl, hmarks⟩, fun c hc => ?_⟩
      rcases List.mem_cons.mp hc with rfl | hc
      · exact .inr (.inl hmarks.1)
      · exact (hrest c hc).imp_right (.imp_right fun hc => ⟨limit, hbounds.1, hc⟩)
    split at h
    next inclusive limit hrest =>
      refine hsign (fun c hc => ?_) h
      split at hrest
      next =>
        cases hrest
        rcases List.mem_cons.mp hc with rfl | hc
        · exact .inr (.inl (by decide))
        · exact hlimit hc
      next =>
        cases hrest
        exact hlimit hc

theorem delimits_of_bounds? (h : bounds? s = some bounds) : Delimits (trim s) bounds := by
  rw [bounds?] at h
  cases hbracketed : bracketed? s with
  | some found =>
      rw [hbracketed] at h
      cases h
      exact delimits_of_bracketed? hbracketed
  | none =>
      rw [hbracketed] at h
      exact delimits_of_half? h

theorem exists_delimits_of_parse? (h : parse? s = .ok (some r)) :
    ∃ bounds, Delimits (trim s) bounds ∧ ofBounds? bounds = .ok (some r) := by
  unfold parse? at h
  split at h
  next bounds hbounds => exact ⟨bounds, delimits_of_bounds? hbounds, h⟩
  next => cases h

theorem exists_of_map? {α β : Type} {f : α → Option β} {i : Interval α} {j : Interval β} (h : i.map? f = some j)
    {x : α} (hx : x ∈ i.min ∨ x ∈ i.max) : ∃ y, f x = some y := by
  have hbound {bound : Option α} {image : Option β} (h : Interval.mapBound? f bound = some image) (hx : x ∈ bound) :
      ∃ y, f x = some y := by
    cases hx
    obtain ⟨y, hy, -⟩ := Option.map_eq_some_iff.mp h
    exact ⟨y, hy⟩
  obtain ⟨min, hmin, h⟩ := Option.bind_eq_some_iff.mp h
  obtain ⟨max, hmax, -⟩ := Option.map_eq_some_iff.mp h
  exact hx.elim (hbound hmin) (hbound hmax)

theorem exists_of_optionalSpan {bound : Option (List Char)} {d : Option Span}
    (h : optionalSpan bound = .ok (some d)) {x : List Char} (hx : x ∈ bound) :
    ∃ span, spanBound x = .ok (some span) := by
  cases hx
  obtain ⟨found, hfound, hd⟩ := map_eq_ok_iff.mp h
  obtain ⟨span, rfl, -⟩ := Option.map_eq_some_iff.mp hd
  exact ⟨span, hfound⟩

theorem exists_of_spans? {interval : Interval Span} (h : spans? bounds = .ok (some interval)) {x : List Char}
    (hx : x ∈ bounds.min ∨ x ∈ bounds.max) : ∃ span, spanBound x = .ok (some span) := by
  unfold spans? at h
  split at h
  · cases h
  · obtain ⟨min, hmin, h⟩ := bind_eq_ok_iff.mp h
    cases min with
    | none => cases h
    | some min =>
        obtain ⟨max, hmax, h⟩ := bind_eq_ok_iff.mp h
        obtain ⟨max, rfl, -⟩ := Option.map_eq_some_iff.mp (pure_eq_ok_iff.mp h)
        exact hx.elim (exists_of_optionalSpan hmin) (exists_of_optionalSpan hmax)

theorem bounds_of_ofBounds? (h : ofBounds? bounds = .ok (some r)) :
    (∀ x, x ∈ bounds.min ∨ x ∈ bounds.max → ∃ span, spanBound x = .ok (some span)) ∨
      ∀ x, x ∈ bounds.min ∨ x ∈ bounds.max → ∃ y, readFloat? x = some y := by
  obtain ⟨spans, hspans, h⟩ := bind_eq_ok_iff.mp h
  cases spans with
  | some interval => exact .inl fun x hx => exists_of_spans? hspans hx
  | none =>
      obtain ⟨interval, hmap, -⟩ := Option.map_eq_some_iff.mp (pure_eq_ok_iff.mp h)
      exact .inr fun x hx => exists_of_map? hmap hx

/-- A bound is a duration out of range: the lower one, or the upper one if no lower one is anything else than a
duration. -/
def Overflows (s : List Char) : Prop :=
  ∃ bounds, bounds? s = some bounds ∧
    ((∃ low ∈ bounds.min, spanBound low = .error ⟨⟩) ∨
      (∀ low ∈ bounds.min, ∃ d, spanBound low = .ok (some d)) ∧ ∃ high ∈ bounds.max, spanBound high = .error ⟨⟩)

theorem optionalSpan_eq_error_iff {bound : Option (List Char)} :
    optionalSpan bound = .error ⟨⟩ ↔ ∃ x ∈ bound, spanBound x = .error ⟨⟩ := by
  cases bound with
  | none => simp [optionalSpan]
  | some x => simp [optionalSpan, map_eq_error_iff]

theorem optionalSpan_isSome_iff {bound : Option (List Char)} :
    (∃ d, optionalSpan bound = .ok (some d)) ↔ ∀ x ∈ bound, ∃ d, spanBound x = .ok (some d) := by
  cases bound with
  | none => simp [optionalSpan]
  | some x => simp [optionalSpan, map_eq_ok_iff]

theorem spans?_eq_error_iff : spans? bounds = .error ⟨⟩ ↔
    optionalSpan bounds.min = .error ⟨⟩ ∨
      (∃ d, optionalSpan bounds.min = .ok (some d)) ∧ optionalSpan bounds.max = .error ⟨⟩ := by
  rw [spans?]
  split
  next hnone =>
    rw [Bool.and_eq_true, Option.isNone_iff_eq_none, Option.isNone_iff_eq_none] at hnone
    rw [hnone.1, hnone.2]
    simp [optionalSpan]
  next =>
    rw [bind_eq_error_iff]
    refine or_congr_right ?_
    constructor
    · rintro ⟨_ | min, hmin, h⟩
      · cases h
      · rcases bind_eq_error_iff.mp h with h | ⟨max, -, h⟩
        · exact ⟨⟨min, hmin⟩, h⟩
        · cases h
    · rintro ⟨⟨min, hmin⟩, hmax⟩
      exact ⟨some min, hmin, bind_eq_error_iff.mpr (.inl hmax)⟩

theorem parse?_eq_error_iff : parse? s = .error ⟨⟩ ↔ Overflows s := by
  have hofBounds (bounds : Interval (List Char)) : ofBounds? bounds = .error ⟨⟩ ↔ spans? bounds = .error ⟨⟩ := by
    rw [ofBounds?, bind_eq_error_iff, or_iff_left_iff_imp]
    rintro ⟨_ | interval, -, h⟩
    · cases h
    · cases h
  rw [parse?, Overflows]
  cases bounds? s with
  | none => simp
  | some bounds =>
      simp only [hofBounds, spans?_eq_error_iff, optionalSpan_eq_error_iff, optionalSpan_isSome_iff,
        Option.some.injEq, exists_eq_left']

open Connective

theorem toLower_not_mem_name {c : Char} (hc : c ∈ marks) (k : Connective) : c.toLower ∉ k.name.toList := by
  revert c
  cases k <;> decide

/-- No connective can be written without each of its letters. -/
theorem undivided_of_letters {letters : List Char}
    (hs : ∀ c ∈ s, isBlank c = true ∨ c ∈ marks ∨ c.toLower ∈ letters)
    (hletters : ∀ k : Connective, ∃ d ∈ k.name.toList, d ∉ letters) : Undivided s := by
  intro word hmem k hword
  obtain ⟨d, hd, hletter⟩ := hletters k
  rw [← hword, lowerAscii] at hd
  obtain ⟨c, hc, rfl⟩ := List.mem_map.mp hd
  rcases hs c (subset_of_mem_laterWords hmem hc) with hblank | hmark | hlower
  · rw [hword.blank_free c hc] at hblank
    cases hblank
  · exact toLower_not_mem_name hmark k (hword.toLower_mem hc)
  · exact hletter hlower

/-- No connective divides the text of a range, nor could one that ends it. -/
theorem undivided_of_parse? (h : parse? s = .ok (some r)) : Undivided (trim s) := by
  obtain ⟨bounds, hdelimits, hbounds⟩ := exists_delimits_of_parse? h
  rcases bounds_of_ofBounds? hbounds with hspans | hnumbers
  · have hletters : ∀ k : Connective, ∃ d ∈ k.name.toList, d ∉ spanLetters := by
      rintro (_ | _)
      · exact ⟨'a', by decide, by decide⟩
      · exact ⟨'o', by decide, by decide⟩
    refine undivided_of_letters (fun c hc => ?_) hletters
    rcases hdelimits.letters c hc with hblank | hmark | ⟨x, hx, hcx⟩
    · exact .inl hblank
    · exact .inr (.inl hmark)
    · obtain ⟨span, hspan⟩ := hspans x hx
      exact (letters_of_read hspan c hcx).imp_right .inr
  · have hletters : ∀ k : Connective, ∃ d ∈ k.name.toList, d ∉ numberLetters := by
      rintro (_ | _)
      · exact ⟨'d', by decide, by decide⟩
      · exact ⟨'o', by decide, by decide⟩
    refine undivided_of_letters (fun c hc => ?_) hletters
    rcases hdelimits.letters c hc with hblank | hmark | ⟨x, hx, hcx⟩
    · exact .inl hblank
    · exact .inr (.inl hmark)
    · obtain ⟨y, hy⟩ := hnumbers x hx
      exact .inr (.inr (letters_of_readFloat? hy c hcx))

theorem not_isWord_of_parse? (h : parse? s = .ok (some r)) (k : Connective) : ¬ IsWord k (firstWord (trim s)) := by
  obtain ⟨bounds, hdelimits, -⟩ := exists_delimits_of_parse? h
  obtain ⟨c, t, ht, hmark, -, -⟩ := hdelimits.head
  have hblank : isBlank c = false := head?_trim_not_blank s c (by rw [ht]; rfl)
  intro hword
  rw [ht, firstWord_cons hblank] at hword
  exact toLower_not_mem_name hmark k (hword.toLower_mem List.mem_cons_self)

end Range

end Phrasebook
