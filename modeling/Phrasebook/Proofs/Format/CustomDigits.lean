import Mathlib.Data.List.DropRight
import Phrasebook.Proofs.Format.IntegerDigits

namespace Phrasebook

open Text

theorem length_positional_snd (coefficient places : Nat) :
    (Decimal.positional ⟨coefficient, -places⟩).2.length = places := by
  rw [Decimal.positional]
  dsimp only
  split
  next h =>
    have hplaces : places = 0 := by omega
    rw [hplaces]
    rfl
  next h =>
    have hplaces : (- -(places : Int)).toNat = places := by omega
    simp only [hplaces, List.length_drop, List.length_append, List.length_replicate]
    omega

theorem length_fixedDigits_snd_le (x : Float) (places : Nat) : (fixedDigits x places).2.length ≤ places := by
  rw [fixedDigits]
  split
  · exact Nat.zero_le _
  · split
    · exact Nat.zero_le _
    · exact Nat.le_of_eq (length_positional_snd _ places)

namespace Number

/-- Digits without the zeros before them, filled up with zeros to a width. -/
structure IsPadded (width : Nat) (digits written : List Char) : Prop where
  exists_eq : ∃ zeros, written = List.replicate zeros '0' ++ digits.dropWhile (· == '0')
  length_eq : written.length = max width (digits.dropWhile (· == '0')).length

/-- Digits without the zeros at their end, of which only those that go beyond the least count are left out. -/
structure IsCut (least : Nat) (digits written : List Char) : Prop where
  exists_eq : ∃ zeros, digits = written ++ List.replicate zeros '0'
  no_less : min least digits.length ≤ written.length
  no_more : written.length ≤ least ∨ written.getLast? ≠ some '0'

/-- Pieces for placeholders that are filled from the right. Only the first one may have more than a digit. -/
structure IsRightAligned (pieces : List (List Char)) : Prop where
  length_le_one : ∀ piece ∈ pieces.tail, piece.length ≤ 1
  pairwise : pieces.Pairwise fun piece later => later = [] → piece = []

/-- How the digits before the point are shared out among placeholders: one by one, or all to the first one if there
are separators between groups of them. -/
inductive Stands (separator : List Char) : (isGrouped : Bool) → (digits : List Char) → List (List Char) → Prop
  | apart {pieces : List (List Char)} (h : IsRightAligned pieces) : Stands separator false pieces.flatten pieces
  | together {digits : List Char} (g : Grouping digits) (unused : Nat) :
    Stands separator true digits (g.text separator :: List.replicate unused [])
  | nothing (unused : Nat) : Stands separator true [] (List.replicate unused [])

def Token.ownText (point : List Char) : Token → List Char
  | .literal s => s
  | .percent => ['%']
  | .point => point
  | _ => []

/-- Tokens write a text in which each placeholder, in their order, has its piece. -/
inductive Lays (point : List Char) : List Token → List (List Char) → List Char → Prop
  | nil : Lays point [] [] []
  | own {t : Token} {tokens : List Token} {pieces : List (List Char)} {text : List Char}
    (ht : t.isPlaceholder = false) (h : Lays point tokens pieces text) :
    Lays point (t :: tokens) pieces (t.ownText point ++ text)
  | placeholder {t : Token} {tokens : List Token} {pieces : List (List Char)} {text : List Char}
    (ht : t.isPlaceholder = true) (piece : List Char) (h : Lays point tokens pieces text) :
    Lays point (t :: tokens) (piece :: pieces) (piece ++ text)

def wholeTokens (tokens : List Token) : List Token :=
  tokens.takeWhile (· != .point)

def fractionTokens (tokens : List Token) : List Token :=
  tokens.dropWhile (· != .point)

def placeholders (tokens : List Token) : List Token :=
  tokens.filter Token.isPlaceholder

/-- The places of all digits that are written for a number. -/
structure Placement (culture : Culture) (tokens : List Token) (digits : Digits) where
  whole : List Char
  fraction : List Char
  pieces : List (List Char)
  padded : IsPadded ((placeholders (wholeTokens tokens)).dropWhile (· != .zero)).length digits.whole whole
  cut : IsCut ((placeholders (fractionTokens tokens)).rdropWhile (· != .zero)).length digits.fraction fraction
  stands : Stands culture.groupSeparator.toList (isGrouped (wholeTokens tokens)) whole pieces

namespace Placement

variable {culture : Culture} {tokens : List Token} {digits : Digits}

/-- Nothing is written for a point that no digits follow. -/
def point (p : Placement culture tokens digits) : List Char :=
  if p.fraction = [] then [] else culture.decimalSeparator.toList

def Writes (p : Placement culture tokens digits) (text : List Char) : Prop :=
  ∃ whole fraction unused, text = whole ++ fraction ∧ Lays p.point (wholeTokens tokens) p.pieces whole ∧
    Lays p.point (fractionTokens tokens) (p.fraction.map ([·]) ++ List.replicate unused []) fraction

end Placement

theorem isPadded_padLeft (width : Nat) (digits : List Char) :
    IsPadded width digits (padLeft '0' width (digits.dropWhile (· == '0'))) := by
  refine ⟨⟨_, rfl⟩, ?_⟩
  rw [padLeft, List.length_append, List.length_replicate]
  omega

theorem exists_eq_rdropWhile_append (digits : List Char) :
    ∃ zeros, digits = digits.rdropWhile (· == '0') ++ List.replicate zeros '0' := by
  have hzeros : ∀ c ∈ digits.rtakeWhile (· == '0'), c = '0' := fun c hc => by
    simpa using List.mem_rtakeWhile_imp hc
  refine ⟨(digits.rtakeWhile (· == '0')).length, ?_⟩
  rw [← List.eq_replicate_of_mem hzeros, List.rdropWhile, List.rtakeWhile, ← List.reverse_append,
    List.takeWhile_append_dropWhile, List.reverse_reverse]

theorem isCut_cutZeros (least : Nat) (digits : List Char) : IsCut least digits (cutZeros least digits) := by
  have hcut : cutZeros least digits = digits.take least ++ (digits.drop least).rdropWhile (· == '0') := rfl
  rw [hcut]
  constructor
  · obtain ⟨zeros, hzeros⟩ := exists_eq_rdropWhile_append (digits.drop least)
    exact ⟨zeros, by rw [List.append_assoc, ← hzeros, List.take_append_drop]⟩
  · simp
  · by_cases hrest : (digits.drop least).rdropWhile (· == '0') = []
    · left
      rw [hrest, List.append_nil, List.length_take]
      exact Nat.min_le_left _ _
    · right
      have hlast := List.rdropWhile_last_not (· == '0') (digits.drop least) hrest
      rw [List.getLast?_append_of_ne_nil _ hrest, List.getLast?_eq_some_getLast hrest]
      simpa using hlast

section

variable (point : List Char) {t : Token} (tokens : List Token) (slots : List (List Char))

theorem fill_own (ht : t.isPlaceholder = false) :
    fill point (t :: tokens) slots = t.ownText point ++ fill point tokens slots := by
  cases t with
  | zero | hash => cases ht
  | _ => rfl

theorem fill_placeholder (ht : t.isPlaceholder = true) :
    fill point (t :: tokens) slots = slots.headD [] ++ fill point tokens slots.tail := by
  cases t with
  | zero | hash => rfl
  | _ => cases ht

end

theorem lays_fill (point : List Char) {tokens : List Token} {slots : List (List Char)}
    (h : slots.length ≤ (placeholders tokens).length) :
    Lays point tokens (slots ++ List.replicate ((placeholders tokens).length - slots.length) [])
      (fill point tokens slots) := by
  induction tokens generalizing slots with
  | nil =>
      obtain rfl := List.eq_nil_of_length_eq_zero (Nat.le_zero.mp h)
      exact .nil
  | cons t tokens ih =>
      cases ht : t.isPlaceholder with
      | false =>
          have hcount : placeholders (t :: tokens) = placeholders tokens := by simp [placeholders, ht]
          rw [hcount] at h ⊢
          rw [fill_own point tokens slots ht]
          exact .own ht (ih h)
      | true =>
          have hcount : (placeholders (t :: tokens)).length = (placeholders tokens).length + 1 := by
            simp [placeholders, ht]
          rw [hcount] at h ⊢
          rw [fill_placeholder point tokens slots ht]
          cases slots with
          | nil => exact .placeholder ht [] (@ih [] (Nat.zero_le _))
          | cons slot slots =>
              rw [List.length_cons, Nat.add_sub_add_right]
              exact .placeholder ht slot (ih (Nat.le_of_succ_le_succ h))

theorem flatten_map_singleton (digits : List Char) : (digits.map ([·])).flatten = digits := by
  rw [← List.flatMap_def, List.flatMap_singleton']

theorem length_slots {placeholders : Nat} (h : 0 < placeholders) (digits : List Char) :
    (slots placeholders digits).length = placeholders := by
  rw [slots, if_neg (by omega)]
  split
  · simp
    omega
  · simp
    omega

theorem flatten_slots {placeholders : Nat} (h : 0 < placeholders) (digits : List Char) :
    (slots placeholders digits).flatten = digits := by
  rw [slots, if_neg (by omega)]
  split
  · dsimp only
    rw [List.flatten_cons, flatten_map_singleton, List.take_append_drop]
  · rw [List.flatten_append, flatten_map_singleton]
    simp

theorem isRightAligned_slots (placeholders : Nat) (digits : List Char) :
    IsRightAligned (slots placeholders digits) := by
  have hone {s : List Char} : ∀ piece ∈ s.map ([·]), piece.length ≤ 1 :=
    List.forall_mem_map.mpr fun _ _ => Nat.le_refl 1
  have hdigits {s : List Char} : (s.map ([·])).Pairwise fun piece later => later = [] → piece = [] :=
    List.pairwise_map.mpr (List.pairwise_of_forall fun _ _ => nofun)
  rw [slots]
  split
  · exact ⟨List.forall_mem_nil _, .nil⟩
  · split
    · refine ⟨hone, List.pairwise_cons.mpr ⟨List.forall_mem_map.mpr fun _ _ => nofun, hdigits⟩⟩
    next hmore =>
      constructor
      · obtain ⟨count, hcount⟩ : ∃ count, placeholders - digits.length = count + 1 :=
          ⟨placeholders - digits.length - 1, by omega⟩
        rw [hcount, List.replicate_succ, List.cons_append, List.tail_cons]
        refine List.forall_mem_append.mpr ⟨fun piece hpiece => ?_, hone⟩
        rw [List.eq_of_mem_replicate hpiece]
        exact Nat.zero_le 1
      · refine List.pairwise_append.mpr ⟨List.pairwise_replicate.mpr (.inr fun _ => rfl), hdigits, ?_⟩
        intro piece hpiece _ _ _
        exact List.eq_of_mem_replicate hpiece

theorem stands_slots (culture : Culture) {tokens : List Token} (h : ∃ t ∈ tokens, t.isPlaceholder = true)
    (digits : List Char) :
    ∃ pieces, Stands culture.groupSeparator.toList (isGrouped tokens) digits pieces ∧ ∀ point,
      Lays point tokens pieces (fill point tokens (if isGrouped tokens
        then [grouped culture.groupSeparator.toList digits] else slots (placeholders tokens).length digits)) := by
  have hpositive : 0 < (placeholders tokens).length := List.length_filter_pos_iff.mpr h
  cases hgrouped : isGrouped tokens with
  | false =>
      refine ⟨slots (placeholders tokens).length digits, ?_, fun point => ?_⟩
      · have hstands :
            Stands culture.groupSeparator.toList false (slots (placeholders tokens).length digits).flatten _ :=
          .apart (isRightAligned_slots (placeholders tokens).length digits)
        rwa [flatten_slots hpositive] at hstands
      · have hlays := lays_fill point (Nat.le_of_eq (length_slots hpositive digits))
        rwa [length_slots hpositive, Nat.sub_self, List.replicate_zero, List.append_nil] at hlays
  | true =>
      refine ⟨_, ?_, fun point => lays_fill point hpositive⟩
      by_cases hdigits : digits = []
      · subst hdigits
        exact .nothing ((placeholders tokens).length - 1 + 1)
      · obtain ⟨g, hg⟩ := Grouping.exists_text_eq hdigits culture.groupSeparator.toList
        rw [hg]
        exact .together g _

theorem length_cutZeros_le (least : Nat) (digits : List Char) : (cutZeros least digits).length ≤ digits.length := by
  obtain ⟨zeros, hzeros⟩ := (isCut_cutZeros least digits).exists_eq
  have hlength := congrArg List.length hzeros
  rw [List.length_append] at hlength
  omega

def sectionDigits (x : Float) (tokens : List Token) : Digits :=
  .ofFloat (x * if tokens.contains .percent then 100 else 1) (placeholders (fractionTokens tokens)).length

theorem writeTokens_places (culture : Culture) (signed : Bool) (x : Float) {tokens : List Token}
    (h : ∃ t ∈ wholeTokens tokens, t.isPlaceholder = true) :
    ∃ (p : Placement culture tokens (sectionDigits x tokens)) (text : List Char), p.Writes text ∧
      writeTokens culture signed x tokens = (if signed then (sectionDigits x tokens).sign else []) ++ text := by
  obtain ⟨pieces, hstands, hlays⟩ := stands_slots culture h
    (padLeft '0' (leastWhole (placeholders (wholeTokens tokens)))
      ((sectionDigits x tokens).whole.dropWhile (· == '0')))
  have hleast : leastFraction (placeholders (fractionTokens tokens)) =
      ((placeholders (fractionTokens tokens)).rdropWhile (· != .zero)).length := by
    rw [leastFraction, leastWhole, List.rdropWhile, List.length_reverse]
  let p : Placement culture tokens (sectionDigits x tokens) := {
    whole := _
    fraction := cutZeros (leastFraction (placeholders (fractionTokens tokens))) (sectionDigits x tokens).fraction
    pieces
    padded := isPadded_padLeft _ _
    cut := hleast ▸ isCut_cutZeros _ _
    stands := hstands }
  have hlength : (p.fraction.map ([·])).length ≤ (placeholders (fractionTokens tokens)).length := by
    rw [List.length_map]
    exact (length_cutZeros_le _ _).trans (length_fixedDigits_snd_le _ _)
  refine ⟨p, _, ⟨_, _, _, rfl, hlays p.point, lays_fill p.point hlength⟩, ?_⟩
  rw [← List.append_assoc]
  rfl

def customSection (format : String) (n : Number) : List Token × Bool :=
  let (chosen, saysSign) := sectionFor n.toFloat (sections format.toList)
  (tokens chosen, saysSign)

/-- A custom format with a placeholder before the point puts each digit of a number in its place, once and in order:
before the point those that are left without leading zeros, with zeros up to the first zero of the format, and after
the point those that are left without the zeros at the end, but not below the last zero of the format. -/
theorem write_custom_places (culture : Culture) {format : String} {n : Number}
    (hcustom : standard? format.toList = none)
    (hwhole : ∃ t ∈ wholeTokens (customSection format n).1, t.isPlaceholder = true) :
    ∃ (p : Placement culture (customSection format n).1 (sectionDigits n.toFloat (customSection format n).1))
      (text : List Char), p.Writes text ∧
        write culture format n = .ok (String.ofList ((if (customSection format n).2 then []
          else (sectionDigits n.toFloat (customSection format n).1).sign) ++ text)) := by
  obtain ⟨p, text, hwrites, htext⟩ := writeTokens_places culture (!(customSection format n).2) n.toFloat hwhole
  refine ⟨p, text, hwrites, ?_⟩
  have hwrite : write culture format n = .ok (String.ofList (writeTokens culture (!(customSection format n).2) n.toFloat
      (customSection format n).1)) := by
    rw [write, hcustom]
    rfl
  rw [hwrite, htext]
  cases (customSection format n).2 <;> rfl

def shareTokens : List Token :=
  [.literal "No. ".toList, .hash, .comma, .hash, .hash, .zero, .point, .zero, .hash, .percent]

theorem write_custom_places_share :
    standard? "'No. '#,##0.0#%".toList = none ∧
      ∃ (p : Placement .invariant shareTokens (sectionDigits (integer 42).toFloat shareTokens)) (text : List Char),
        p.Writes text ∧ write .invariant "'No. '#,##0.0#%" (.integer 42) =
          .ok (String.ofList ((sectionDigits (integer 42).toFloat shareTokens).sign ++ text)) := by
  have hcustom : standard? "'No. '#,##0.0#%".toList = none := by decide +kernel
  have hsection : customSection "'No. '#,##0.0#%" (.integer 42) = (shareTokens, false) := by decide +kernel
  have hwhole : ∃ t ∈ wholeTokens (customSection "'No. '#,##0.0#%" (.integer 42)).1, t.isPlaceholder = true := by
    rw [hsection]
    decide
  have hplaces := write_custom_places .invariant hcustom hwhole
  rw [hsection] at hplaces
  exact ⟨hcustom, hplaces⟩

end Number

end Phrasebook
