import Mathlib.Data.List.Basic
import Mathlib.Data.List.Induction
import Phrasebook.Format.Basic
import Phrasebook.Proofs.Text.Digits

namespace Phrasebook

open Text

namespace Number

structure Precision where
  digits : List Char
  length_digits : 1 ≤ digits.length ∧ digits.length ≤ 2
  isDigit_of_mem : ∀ c ∈ digits, isDigit c = true

namespace Precision

def places (p : Precision) : Nat :=
  digitsValue p.digits

def format (p : Precision) (letter : Char) : String :=
  String.ofList (letter :: p.digits)

theorem exists_places_eq (n : Fin 100) : ∃ p : Precision, p.digits = decimalDigits n ∧ p.places = n := by
  have hlength : (decimalDigits n).length ≤ 2 := (Nat.length_toDigits_le_iff (by decide) (by decide)).mpr n.isLt
  exact ⟨⟨decimalDigits n, ⟨List.length_pos_iff.mpr Nat.toDigits_ne_nil, hlength⟩,
    fun _ => isDigit_of_mem_decimalDigits⟩, rfl, digitsValue_decimalDigits n⟩

end Precision

/-- Digits in groups of three, counted from the right. The first group may be shorter. -/
structure Grouping (digits : List Char) where
  first : List Char
  rest : List (List Char)
  length_first : 1 ≤ first.length ∧ first.length ≤ 3
  length_rest : ∀ group ∈ rest, group.length = 3
  flatten_eq : first ++ rest.flatten = digits

def Grouping.text {digits : List Char} (g : Grouping digits) (separator : List Char) : List Char :=
  separator.intercalate (g.first :: g.rest)

def minus (n : Int64) : List Char :=
  if n.toInt < 0 then ['-'] else []

/-- The decimal separator and as many zeros as there are places, or nothing where there are none. -/
def zeroPlaces (culture : Culture) (places : Nat) : List Char :=
  if places = 0 then [] else culture.decimalSeparator.toList ++ List.replicate places '0'

def ungrouped (width : Nat) : List Char → List Char
  | c :: d :: e :: rest => c :: d :: e :: ungrouped width (rest.drop width)
  | s => s
termination_by s => s.length
decreasing_by simp only [List.length_cons, List.length_drop]; omega

def withoutPlaces (culture : Culture) (places : Nat) (s : List Char) : List Char :=
  s.take (s.length - (zeroPlaces culture places).length)

def readFixed? (culture : Culture) (places : Nat) (text : String) : Option Int :=
  readInt? (withoutPlaces culture places text.toList)

def readGrouped? (culture : Culture) (places : Nat) (text : String) : Option Int :=
  let signed := readSign (withoutPlaces culture places text.toList)
  (readNat? (ungrouped culture.groupSeparator.toList.length signed.2.reverse).reverse).map (withSign signed.1)

namespace Grouping

variable {digits : List Char}

theorem text_eq (g : Grouping digits) (separator : List Char) :
    g.text separator = g.first ++ g.rest.flatMap (separator ++ ·) := by
  rw [text]
  generalize g.first = first
  induction g.rest generalizing first with
  | nil => simp
  | cons group rest ih =>
      rw [List.intercalate_cons_cons, ih, List.flatMap_cons, List.append_assoc, List.append_assoc]

theorem length_flatten {groups : List (List Char)} (h : ∀ group ∈ groups, group.length = 3) :
    groups.flatten.length = 3 * groups.length := by
  induction groups with
  | nil => rfl
  | cons group groups ih =>
      rw [List.forall_mem_cons] at h
      rw [List.flatten_cons, List.length_append, List.length_cons, h.1, ih h.2]
      omega

theorem length_eq (g : Grouping digits) : digits.length = g.first.length + 3 * g.rest.length := by
  rw [← length_flatten g.length_rest, ← List.length_append, g.flatten_eq]

theorem ungrouped_of_length_le {width : Nat} {s : List Char} (h : s.length ≤ 3) : ungrouped width s = s := by
  unfold ungrouped
  split
  next c d e rest =>
    simp only [List.length_cons] at h
    have hrest : rest = [] := List.eq_nil_of_length_eq_zero (by omega)
    rw [hrest, List.drop_nil, ungrouped]
    intro _ _ _ _ hcons
    cases hcons
  next => rfl

/-- Separators are told from digits by their place alone, so they may be any text. -/
theorem ungrouped_text (g : Grouping digits) (separator : List Char) :
    ungrouped separator.length (g.text separator).reverse = digits.reverse := by
  obtain ⟨first, rest, hfirst, hrest, rfl⟩ := g
  rw [text_eq]
  dsimp only
  -- the last group is the one that is read first
  induction rest using List.reverseRecOn with
  | nil =>
      simp only [List.flatMap_nil, List.flatten_nil, List.append_nil]
      exact ungrouped_of_length_le (by rw [List.length_reverse]; exact hfirst.2)
  | append_singleton rest group ih =>
      rw [List.forall_mem_append, List.forall_mem_singleton] at hrest
      obtain ⟨c, d, e, rfl⟩ := List.length_eq_three.mp hrest.2
      have hih := ih hrest.1
      simp only [List.flatMap_append, List.flatMap_singleton, List.flatten_append, List.flatten_singleton,
        ← List.append_assoc, List.reverse_append] at hih ⊢
      simp [ungrouped, hih]

theorem exists_text_eq (hne : digits ≠ []) (separator : List Char) :
    ∃ g : Grouping digits, grouped separator digits = g.text separator := by
  induction digits with
  | nil => exact absurd rfl hne
  | cons c rest ih =>
      rw [grouped]
      by_cases hrest : rest = []
      · subst hrest
        exact ⟨⟨[c], [], by simp, List.forall_mem_nil _, rfl⟩, by simp [grouped, Grouping.text]⟩
      · obtain ⟨g, hg⟩ := ih hrest
        have hfirst := g.length_first
        have hlength := g.length_eq
        -- a digit opens a group of its own in front of a full one, and joins a first group that is not full
        split
        next hthree =>
          refine ⟨⟨[c], g.first :: g.rest, by simp, ?_, ?_⟩, ?_⟩
          · exact List.forall_mem_cons.mpr ⟨by omega, g.length_rest⟩
          · rw [List.flatten_cons, g.flatten_eq, List.singleton_append]
          · rw [hg, text, text, List.intercalate_cons_cons]
            simp
        next hthree =>
          have hle : g.first.length ≤ 2 := by
            have : rest.length % 3 ≠ 0 := fun h => hthree ⟨h, hrest⟩
            omega
          refine ⟨⟨c :: g.first, g.rest, ⟨Nat.succ_pos _, Nat.succ_le_succ hle⟩, g.length_rest, ?_⟩, ?_⟩
          · rw [List.cons_append, g.flatten_eq]
          · rw [hg, text_eq, text_eq, List.cons_append]

end Grouping

theorem readSigned {n : Int64} {s : List Char} (hne : s ≠ []) (hs : ∀ c ∈ s, isDigit c = true)
    (hvalue : digitsValue s = n.toInt.natAbs) : (readNat? s).map (withSign (n.toInt < 0)) = some n.toInt := by
  rw [readNat?, if_pos ⟨hne, List.all_eq_true.mpr hs⟩, hvalue, Option.map_some, withSign_natAbs]

theorem readSign_minus (n : Int64) {s : List Char} (hne : s ≠ []) (hs : ∀ c ∈ s, isDigit c = true) (rest : List Char) :
    readSign (minus n ++ (s ++ rest)) = (decide (n.toInt < 0), s ++ rest) := by
  have h := readSign_append hne hs (decide (n.toInt < 0)) rest
  simp only [decide_eq_true_eq] at h
  exact h

theorem readInt?_minus {n : Int64} {s : List Char} (hne : s ≠ []) (hs : ∀ c ∈ s, isDigit c = true)
    (hvalue : digitsValue s = n.toInt.natAbs) : readInt? (minus n ++ s) = some n.toInt := by
  have h := readSign_minus n hne hs []
  rw [List.append_nil] at h
  rw [readInt?, h, readSigned hne hs hvalue]

theorem sign_ofInteger (n : Int64) (places : Nat) : (Digits.ofInteger n places).sign = minus n := by
  have hzero (hneg : n.toInt < 0) : (Digits.ofInteger n places).isZero = false := by
    rw [Digits.isZero, Bool.eq_false_iff]
    intro hall
    have hdigits : ∀ c ∈ decimalDigits n.toInt.natAbs, c = '0' := by
      intro c hc
      simpa using List.all_eq_true.mp hall c (List.mem_append_left _ hc)
    have hvalue := digitsValue_decimalDigits n.toInt.natAbs
    rw [List.eq_replicate_of_mem hdigits, digitsValue_zeros] at hvalue
    omega
  by_cases hneg : n.toInt < 0
  · rw [Digits.sign, hzero hneg]
    simp [minus, hneg, Digits.ofInteger]
  · simp [Digits.sign, minus, hneg, Digits.ofInteger]

theorem joined_ofInteger (culture : Culture) (n : Int64) (places : Nat) (whole : List Char) :
    joined culture (.ofInteger n places) whole = minus n ++ whole ++ zeroPlaces culture places := by
  rw [joined, sign_ofInteger, zeroPlaces]
  simp [Digits.ofInteger]

theorem withoutPlaces_append (culture : Culture) (places : Nat) (s : List Char) :
    withoutPlaces culture places (s ++ zeroPlaces culture places) = s := by
  rw [withoutPlaces, List.take_left' (by simp)]

theorem toNat_toUInt64 (n : Int64) : n.toUInt64.toNat = (n.toInt % 0x10000000000000000).toNat := by
  change n.toBitVec.toNat = (n.toBitVec.toInt % 0x10000000000000000).toNat
  have := n.toBitVec.isLt
  rw [BitVec.toInt_eq_toNat_bmod, Int.bmod_def]
  omega

theorem standard?_format (p : Precision) {letter : Char} (h : letter.isAlpha) :
    standard? (p.format letter).toList = some (letter, some p.places) := by
  have hne : p.digits ≠ [] := List.length_pos_iff.mp p.length_digits.1
  rw [Precision.format, String.toList_ofList, standard?, if_pos, if_neg hne]
  · rfl
  · exact ⟨h, p.length_digits.2, List.all_eq_true.mpr p.isDigit_of_mem⟩

theorem formatted_integer (culture : Culture) (n : Int64) (p : Precision) {letter : Char} (h : letter.isAlpha) :
    (Value.integer n).formatted culture (p.format letter) =
      (writeStandard culture (p.format letter) letter (some p.places) (.integer n)).map String.ofList := by
  rw [Value.formatted, write, standard?_format p h]

/-- What the standard formats write for an integer, and what a reader gets back from it. -/
structure KeepsDigits (culture : Culture) (n : Int64) (p : Precision) : Prop where
  grouped : ∀ letter ∈ ['N', 'n'], ∃ (g : Grouping (decimalDigits n.toInt.natAbs)) (text : String),
    (Value.integer n).formatted culture (p.format letter) = .ok text ∧
      text.toList = minus n ++ g.text culture.groupSeparator.toList ++ zeroPlaces culture p.places ∧
        readGrouped? culture p.places text = some n.toInt
  fixed : ∀ letter ∈ ['F', 'f'], ∃ text : String, (Value.integer n).formatted culture (p.format letter) = .ok text ∧
    text.toList = minus n ++ decimalDigits n.toInt.natAbs ++ zeroPlaces culture p.places ∧
      readFixed? culture p.places text = some n.toInt
  decimal : ∀ letter ∈ ['D', 'd'], ∃ text : String, (Value.integer n).formatted culture (p.format letter) = .ok text ∧
    text.toList = minus n ++ padLeft '0' p.places (decimalDigits n.toInt.natAbs) ∧ readInt? text.toList = some n.toInt
  hexadecimal : (Value.integer n).formatted culture (p.format 'x') =
    .ok (String.ofList (padLeft '0' p.places (Nat.toDigits 16 (n.toInt % 0x10000000000000000).toNat)))
  upperHexadecimal : (Value.integer n).formatted culture (p.format 'X') =
    .ok (String.ofList (padLeft '0' p.places
      ((Nat.toDigits 16 (n.toInt % 0x10000000000000000).toNat).map Char.toUpper)))
  plain : ∀ format ∈ ["G", "g", "R", "r"], (Value.integer n).formatted culture format =
    .ok (String.ofList (minus n ++ decimalDigits n.toInt.natAbs))

section

variable (culture : Culture) (n : Int64) (p : Precision)

theorem formatted_grouped {letter : Char} (h : letter ∈ ['N', 'n']) :
    (Value.integer n).formatted culture (p.format letter) =
      .ok (String.ofList (minus n ++ grouped culture.groupSeparator.toList (decimalDigits n.toInt.natAbs) ++
        zeroPlaces culture p.places)) := by
  rw [← joined_ofInteger]
  rcases List.mem_pair.mp h with rfl | rfl
  · exact formatted_integer culture n p (by decide)
  · exact formatted_integer culture n p (by decide)

theorem formatted_fixed {letter : Char} (h : letter ∈ ['F', 'f']) :
    (Value.integer n).formatted culture (p.format letter) =
      .ok (String.ofList (minus n ++ decimalDigits n.toInt.natAbs ++ zeroPlaces culture p.places)) := by
  rw [← joined_ofInteger]
  rcases List.mem_pair.mp h with rfl | rfl
  · exact formatted_integer culture n p (by decide)
  · exact formatted_integer culture n p (by decide)

theorem formatted_decimal {letter : Char} (h : letter ∈ ['D', 'd']) :
    (Value.integer n).formatted culture (p.format letter) =
      .ok (String.ofList (minus n ++ padLeft '0' p.places (decimalDigits n.toInt.natAbs))) := by
  rcases List.mem_pair.mp h with rfl | rfl
  · exact formatted_integer culture n p (by decide)
  · exact formatted_integer culture n p (by decide)

theorem formatted_plain {format : String} (h : format ∈ ["G", "g", "R", "r"]) :
    (Value.integer n).formatted culture format =
      .ok (String.ofList (minus n ++ decimalDigits n.toInt.natAbs)) := by
  have htext : minus n ++ decimalDigits n.toInt.natAbs = (toString n.toInt).toList := (toList_toString n.toInt).symm
  rw [htext]
  simp only [List.mem_cons, List.not_mem_nil, or_false] at h
  rcases h with rfl | rfl | rfl | rfl <;> rfl

theorem readGrouped?_text (g : Grouping (decimalDigits n.toInt.natAbs)) :
    readGrouped? culture p.places (String.ofList
      (minus n ++ g.text culture.groupSeparator.toList ++ zeroPlaces culture p.places)) = some n.toInt := by
  have hfirst : ∀ c ∈ g.first, isDigit c = true := fun c hc =>
    isDigit_of_mem_decimalDigits (g.flatten_eq ▸ List.mem_append_left g.rest.flatten hc)
  have hsign := readSign_minus n (List.length_pos_iff.mp g.length_first.1) hfirst
  rw [readGrouped?, String.toList_ofList, withoutPlaces_append, g.text_eq, hsign, ← g.text_eq, g.ungrouped_text,
    List.reverse_reverse]
  exact readSigned Nat.toDigits_ne_nil (fun _ => isDigit_of_mem_decimalDigits) (digitsValue_decimalDigits _)

theorem readFixed?_text : readFixed? culture p.places (String.ofList
    (minus n ++ decimalDigits n.toInt.natAbs ++ zeroPlaces culture p.places)) = some n.toInt := by
  rw [readFixed?, String.toList_ofList, withoutPlaces_append]
  exact readInt?_minus Nat.toDigits_ne_nil (fun _ => isDigit_of_mem_decimalDigits) (digitsValue_decimalDigits _)

theorem readInt?_padded :
    readInt? (minus n ++ padLeft '0' p.places (decimalDigits n.toInt.natAbs)) = some n.toInt :=
  readInt?_minus (padded_ne_nil _ _) (fun _ => isDigit_of_mem_padded) (digitsValue_padded _ _)

end

/-- Standard formats lose no digit of an integer, whatever the culture, at any precision below a hundred. -/
theorem formatted_keepsDigits (culture : Culture) (n : Int64) : (∀ p : Precision, KeepsDigits culture n p) ∧
    ∀ places : Fin 100, ∃ p : Precision, p.digits = decimalDigits places ∧ p.places = places := by
  refine ⟨fun p => ?_, Precision.exists_places_eq⟩
  constructor
  case grouped =>
    intro letter hletter
    have hne : decimalDigits n.toInt.natAbs ≠ [] := Nat.toDigits_ne_nil
    obtain ⟨g, hg⟩ := Grouping.exists_text_eq hne culture.groupSeparator.toList
    have htext := formatted_grouped culture n p hletter
    rw [hg] at htext
    exact ⟨g, _, htext, String.toList_ofList, readGrouped?_text culture n p g⟩
  case fixed =>
    intro letter hletter
    exact ⟨_, formatted_fixed culture n p hletter, String.toList_ofList, readFixed?_text culture n p⟩
  case decimal =>
    intro letter hletter
    refine ⟨_, formatted_decimal culture n p hletter, String.toList_ofList, ?_⟩
    rw [String.toList_ofList]
    exact readInt?_padded n p
  case hexadecimal =>
    rw [formatted_integer culture n p (by decide), ← toNat_toUInt64]
    rfl
  case upperHexadecimal =>
    rw [formatted_integer culture n p (by decide), ← toNat_toUInt64]
    rfl
  case plain => exact fun format hformat => formatted_plain culture n hformat

example : (Value.integer Int64.minValue).formatted ⟨",", ".", "", "", "", "", ""⟩ "N2" =
    .ok "-9.223.372.036.854.775.808,00" := by
  decide +kernel

end Number

end Phrasebook
