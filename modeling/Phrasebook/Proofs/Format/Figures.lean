import Phrasebook.Format.Number
import Phrasebook.Language.Basic
import Phrasebook.Proofs.Text.Percent

namespace Phrasebook

open Text

namespace Text

def IsFigure (c : Char) : Prop :=
  c ≠ '%' ∧ isAccentMark c = false

instance (c : Char) : Decidable (IsFigure c) :=
  inferInstanceAs (Decidable (_ ∧ _))

theorem not_mem_of_figures {s : List Char} (h : ∀ c ∈ s, IsFigure c) : '%' ∉ s :=
  fun hs => (h _ hs).1 rfl

theorem exists_digitChar_of_mem_toDigits {b n : Nat} (hb : 1 < b) {c : Char} (h : c ∈ Nat.toDigits b n) :
    ∃ d, c = Nat.digitChar d := by
  induction n using Nat.strongRecOn with
  | ind n ih =>
      rw [Nat.toDigits_eq_if hb] at h
      split at h
      · exact ⟨n, List.mem_singleton.mp h⟩
      next hn =>
        rcases List.mem_append.mp h with h | h
        · exact ih (n / b) (Nat.div_lt_self (by omega) hb) h
        · exact ⟨n % b, List.mem_singleton.mp h⟩

theorem digitChar_mem (d : Nat) : Nat.digitChar d ∈ "0123456789abcdef*".toList := by
  have hdigits : ∀ d < 16, Nat.digitChar d ∈ "0123456789abcdef*".toList := by decide
  by_cases hd : d < 16
  · exact hdigits d hd
  · have hstar : Nat.digitChar d = '*' := by
      unfold Nat.digitChar
      repeat rw [if_neg (by omega)]
    rw [hstar]
    decide

theorem isFigure_digitChar (d : Nat) : IsFigure (Nat.digitChar d) ∧ (Nat.digitChar d).toUpper ≠ '%' := by
  have hfigures : ∀ c ∈ "0123456789abcdef*".toList, IsFigure c ∧ c.toUpper ≠ '%' := by decide
  exact hfigures _ (digitChar_mem d)

theorem decimalDigits_figures (n : Nat) : ∀ c ∈ decimalDigits n, IsFigure c := by
  intro c hc
  obtain ⟨d, rfl⟩ := exists_digitChar_of_mem_toDigits (by decide) hc
  exact (isFigure_digitChar d).1

theorem not_mem_padLeft {width : Nat} {s : List Char} (h : '%' ∉ s) : '%' ∉ padLeft '0' width s := by
  simp [padLeft, h]

theorem not_mem_padded (n width : Nat) : '%' ∉ (padded n width).toList := by
  rw [padded, String.toList_ofList]
  exact not_mem_padLeft (not_mem_of_figures (decimalDigits_figures n))

theorem not_mem_toString (n : Int) : '%' ∉ (toString n).toList := by
  cases n with
  | ofNat n =>
      change '%' ∉ (Nat.repr n).toList
      rw [Nat.repr, String.toList_ofList]
      exact not_mem_of_figures (decimalDigits_figures n)
  | negSucc n =>
      change '%' ∉ ("-" ++ Nat.repr (n + 1)).toList
      rw [Nat.repr, String.toList_append, List.mem_append, not_or]
      refine ⟨by decide, ?_⟩
      rw [String.toList_ofList]
      exact not_mem_of_figures (decimalDigits_figures (n + 1))

end Text

open Text

def Culture.texts (c : Culture) : List String :=
  [c.decimalSeparator, c.groupSeparator, c.shortDate, c.longDate, c.shortTime, c.longTime, c.percentSpacing]

/-- The only percent signs are those that formats write. -/
def Culture.Percentless (c : Culture) : Prop :=
  ∀ s ∈ c.texts, '%' ∉ s.toList

instance (c : Culture) : Decidable c.Percentless :=
  inferInstanceAs (Decidable (∀ s ∈ c.texts, '%' ∉ s.toList))

theorem Culture.percentless_getD {found : Option Culture} (h : ∀ c ∈ found, c.Percentless) :
    (found.getD .invariant).Percentless := by
  cases found with
  | none => exact (by decide : Culture.invariant.Percentless)
  | some c => exact h c rfl

theorem Language.culture_percentless (l : Language) : l.culture.Percentless := by
  have hknown : ∀ entry ∈ Culture.known, entry.2.Percentless := by decide
  refine Culture.percentless_getD fun c hc => ?_
  obtain ⟨tag, -, hc⟩ := List.exists_of_findSome?_eq_some hc
  obtain ⟨entry, hentry, rfl⟩ := Option.map_eq_some_iff.mp hc
  exact hknown entry (List.mem_of_find?_eq_some hentry)

theorem Decimal.exists_digitChar_of_mem_positional {d : Decimal} {c : Char}
    (h : c ∈ d.positional.1 ++ d.positional.2) : ∃ n, c = Nat.digitChar n := by
  have hzero (n : Nat) (hc : c ∈ List.replicate n '0') : ∃ n, c = Nat.digitChar n :=
    ⟨0, List.eq_of_mem_replicate hc⟩
  have hdigit : c ∈ Nat.toDigits 10 d.coefficient → ∃ n, c = Nat.digitChar n :=
    exists_digitChar_of_mem_toDigits (by decide)
  unfold positional at h
  dsimp only at h
  split at h
  · rw [List.append_nil] at h
    exact (List.mem_append.mp h).elim hdigit (hzero _)
  · rw [List.take_append_drop] at h
    exact (List.mem_append.mp h).elim (hzero _) hdigit

theorem Decimal.positional_figures (d : Decimal) :
    d.positional.1 ≠ [] ∧ ∀ c ∈ d.positional.1 ++ d.positional.2, IsFigure c := by
  refine ⟨?_, fun c hc => ?_⟩
  · unfold positional
    dsimp only
    split
    · simp
    · rw [Ne, List.take_eq_nil_iff, not_or]
      simp
      omega
  · obtain ⟨n, rfl⟩ := exists_digitChar_of_mem_positional hc
    exact (isFigure_digitChar n).1

theorem fixedDigits_figures (x : Float) (places : Nat) :
    (fixedDigits x places).1 ≠ [] ∧ ∀ c ∈ (fixedDigits x places).1 ++ (fixedDigits x places).2, IsFigure c := by
  unfold fixedDigits
  split
  · decide
  · split
    · decide
    · exact Decimal.positional_figures _

theorem not_mem_pointed {s : List Char × List Char} (h : ∀ c ∈ s.1 ++ s.2, IsFigure c) : '%' ∉ pointed s := by
  have := not_mem_of_figures h
  unfold pointed
  split <;> simp_all

theorem not_mem_signed {x : Float} {s : List Char} (h : '%' ∉ s) : '%' ∉ signed x s := by
  unfold signed
  split <;> simp [h]

theorem not_mem_fixedText (x : Float) (places : Nat) : '%' ∉ fixedText x places :=
  not_mem_signed (not_mem_pointed (fixedDigits_figures x places).2)

theorem not_mem_scientificText (x : Float) (places : Nat) : '%' ∉ (scientificText x places).1 := by
  unfold scientificText
  split
  · decide
  · split
    · exact not_mem_signed (by decide)
    · exact not_mem_signed (not_mem_pointed (Decimal.positional_figures _).2)

theorem not_mem_dropWhile {α : Type} {a : α} {p : α → Bool} {s : List α} (h : a ∉ s) : a ∉ s.dropWhile p :=
  fun hs => h ((List.dropWhile_suffix p).subset hs)

theorem not_mem_rdropWhile {α : Type} {a : α} {p : α → Bool} {s : List α} (h : a ∉ s) :
    a ∉ (s.reverse.dropWhile p).reverse := by
  rw [List.mem_reverse]
  exact not_mem_dropWhile (by rwa [List.mem_reverse])

def floatAlphabet : List Char := "0123456789abcdef*-.NaNinf".toList

theorem floatText_subset (x : Float) : (floatText x).toList ⊆ floatAlphabet := by
  have hsigned (s : String) (hs : s.toList ⊆ floatAlphabet) :
      ((if isSigned x then "-" else "") ++ s).toList ⊆ floatAlphabet := by
    rw [String.toList_append]
    refine List.append_subset.mpr ⟨?_, hs⟩
    split <;> decide
  have hdigit (n : Nat) : n.digitChar ∈ floatAlphabet :=
    (by decide : "0123456789abcdef*".toList ⊆ floatAlphabet) (digitChar_mem n)
  have hdigits : (Dyadic.ofFloat x).shortest.positional.1 ++ (Dyadic.ofFloat x).shortest.positional.2 ⊆
      floatAlphabet := by
    intro c hc
    obtain ⟨n, rfl⟩ := Decimal.exists_digitChar_of_mem_positional hc
    exact hdigit n
  obtain ⟨hwhole, hfraction⟩ := List.append_subset.mp hdigits
  unfold floatText
  dsimp only
  split
  · decide
  · split
    · exact hsigned _ (by decide)
    · split
      · exact hsigned _ (by decide)
      · refine hsigned _ ?_
        rw [String.toList_ofList]
        split
        · exact hwhole
        · refine List.append_subset.mpr ⟨hwhole, List.cons_subset.mpr ⟨by decide, fun c hc => hfraction ?_⟩⟩
          simpa using (List.dropWhile_suffix _).subset (List.mem_reverse.mp hc)

theorem not_mem_floatText (x : Float) : '%' ∉ (floatText x).toList :=
  fun h => absurd (floatText_subset x h) (by decide)

namespace Number

variable {culture : Culture} (hculture : culture.Percentless)

theorem ofFloat_figures (x : Float) (places : Nat) :
    (Digits.ofFloat x places).whole ≠ [] ∧
      ∀ c ∈ (Digits.ofFloat x places).whole ++ (Digits.ofFloat x places).fraction, IsFigure c :=
  fixedDigits_figures x places

theorem of_figures (n : Number) (places : Nat) :
    ∀ c ∈ (Digits.of n places).whole ++ (Digits.of n places).fraction, IsFigure c := by
  cases n with
  | integer n =>
      refine List.forall_mem_append.mpr ⟨decimalDigits_figures _, fun c hc => ?_⟩
      rw [List.eq_of_mem_replicate hc]
      decide
  | float x => exact (ofFloat_figures x places).2

theorem not_mem_sign (d : Digits) : '%' ∉ d.sign := by
  unfold Digits.sign
  split <;> decide

theorem mem_grouped {separator s : List Char} {c : Char} (h : c ∈ grouped separator s) : c ∈ separator ∨ c ∈ s := by
  fun_induction grouped separator s with
  | case1 => exact .inr h
  | case2 d rest _ ih =>
      rw [List.mem_append, List.mem_cons] at h
      rcases h with (h | h) | h
      · exact .inr (List.mem_cons.mpr (.inl h))
      · exact .inl h
      · exact (ih h).imp_right (List.mem_cons_of_mem d)
  | case3 d rest _ ih =>
      rcases List.mem_cons.mp h with h | h
      · exact .inr (List.mem_cons.mpr (.inl h))
      · exact (ih h).imp_right (List.mem_cons_of_mem d)

theorem mem_replacePoint {separator : String} {s : List Char} {c : Char} (h : c ∈ replacePoint separator s) :
    c ∈ separator.toList ∨ c ∈ s := by
  fun_induction replacePoint separator s with
  | case1 => exact .inr h
  | case2 rest => exact (List.mem_append.mp h).imp_right (List.mem_cons_of_mem _)
  | case3 d rest _ ih =>
      rcases List.mem_cons.mp h with h | h
      · exact .inr (List.mem_cons.mpr (.inl h))
      · exact (ih h).imp_right (List.mem_cons_of_mem d)

include hculture

theorem not_mem_joined {d : Digits} {whole : List Char} (hwhole : '%' ∉ whole) (hfraction : '%' ∉ d.fraction) :
    '%' ∉ joined culture d whole := by
  have hpoint := hculture culture.decimalSeparator (by simp [Culture.texts])
  have hsign := not_mem_sign d
  unfold joined
  split <;> simp [*]

theorem not_mem_grouped {s : List Char} (h : '%' ∉ s) : '%' ∉ grouped culture.groupSeparator.toList s :=
  fun hs => (mem_grouped hs).elim (hculture culture.groupSeparator (by simp [Culture.texts])) h

theorem not_mem_replacePoint {s : List Char} (h : '%' ∉ s) : '%' ∉ replacePoint culture.decimalSeparator s :=
  fun hs => (mem_replacePoint hs).elim (hculture culture.decimalSeparator (by simp [Culture.texts])) h

theorem not_mem_plainFloat (x : Float) : '%' ∉ plainFloat culture x :=
  not_mem_replacePoint hculture (not_mem_floatText x)

omit hculture in
theorem not_mem_withExponent {letter : Char} (hletter : letter ≠ '%') {width : Nat} {mantissa : List Char}
    (h : '%' ∉ mantissa) (exponent : Int) : '%' ∉ withExponent letter width mantissa exponent := by
  have hdigits : '%' ∉ padLeft '0' width (decimalDigits exponent.natAbs) :=
    not_mem_padLeft (not_mem_of_figures (decimalDigits_figures _))
  unfold withExponent
  split <;> simp [h, hletter.symm, hdigits]

omit hculture in
theorem not_mem_shortened {s : List Char} (h : '%' ∉ s) : '%' ∉ shortened s := by
  unfold shortened
  split
  · rw [List.mem_reverse]
    refine not_mem_dropWhile (not_mem_dropWhile ?_)
    rwa [List.mem_reverse]
  · exact h

omit hculture in
theorem not_mem_hexadecimal (upper : Bool) (n : Int64) : '%' ∉ hexadecimal upper n := by
  have hdigits : ∀ c ∈ Nat.toDigits 16 n.toUInt64.toNat, c ≠ '%' ∧ c.toUpper ≠ '%' := by
    intro c hc
    obtain ⟨d, rfl⟩ := exists_digitChar_of_mem_toDigits (by decide) hc
    exact ⟨(isFigure_digitChar d).1.1, (isFigure_digitChar d).2⟩
  unfold hexadecimal
  dsimp only
  split
  · intro h
    obtain ⟨c, hc, he⟩ := List.mem_map.mp h
    exact (hdigits c hc).2 he
  · exact fun h => (hdigits _ h).1 rfl

theorem not_mem_scientific {letter : Char} (hletter : letter ≠ '%') (x : Float) (places : Nat) :
    '%' ∉ scientific culture letter x places :=
  not_mem_withExponent hletter (not_mem_replacePoint hculture (not_mem_scientificText x places)) _

theorem not_mem_general {letter : Char} (hletter : letter ≠ '%') (x : Float) (digits : Nat) :
    '%' ∉ general culture letter x digits := by
  unfold general
  dsimp only
  split
  · exact not_mem_replacePoint hculture (not_mem_shortened (not_mem_fixedText x _))
  · exact not_mem_withExponent hletter
      (not_mem_replacePoint hculture (not_mem_shortened (not_mem_scientificText x _))) _

/-- A percentage has its one percent sign behind digits. -/
theorem percentsApart_percentage (x : Float) (places : Nat) :
    PercentsApart (groupedPoint culture (.ofFloat x places) ++ culture.percentSpacing.toList ++ ['%']) := by
  obtain ⟨hne, hfigures⟩ := ofFloat_figures x places
  obtain ⟨hwhole, hfraction⟩ := List.forall_mem_append.mp hfigures
  refine percentsApart_concat ?_ ?_
  · rw [List.mem_append, not_or]
    exact ⟨not_mem_joined hculture (not_mem_grouped hculture (not_mem_of_figures hwhole))
      (not_mem_of_figures hfraction), hculture culture.percentSpacing (by simp [Culture.texts])⟩
  · obtain ⟨c, rest, heq⟩ := List.exists_cons_of_ne_nil hne
    refine ⟨c, ?_, (hwhole c (by rw [heq]; exact List.mem_cons_self)).2⟩
    have hgrouped : c ∈ grouped culture.groupSeparator.toList (Digits.ofFloat x places).whole := by
      rw [heq, grouped]
      split <;> exact List.mem_cons_self
    unfold groupedPoint joined
    simp [hgrouped]

omit hculture in
theorem not_mem_integerOnly {n : Number} {write : Int64 → List Char} (hwrite : ∀ n, '%' ∉ write n) {s : List Char}
    (h : integerOnly n write = .ok s) : '%' ∉ s := by
  cases n with
  | integer n =>
      cases h
      exact hwrite n
  | float => cases h

omit hculture in
theorem not_mem_decimalInteger (width : Nat) (n : Int64) : '%' ∉ decimalInteger width n := by
  have hdigits : '%' ∉ padLeft '0' width (decimalDigits n.toInt.natAbs) :=
    not_mem_padLeft (not_mem_of_figures (decimalDigits_figures _))
  unfold decimalInteger
  split <;> simp [hdigits]

theorem percentsApart_writeStandard {format : String} {letter : Char} {precision : Option Nat} {n : Number}
    {s : List Char} (h : writeStandard culture format letter precision n = .ok s) : PercentsApart s := by
  have hdigits (places : Nat) : '%' ∉ (Digits.of n places).whole ∧ '%' ∉ (Digits.of n places).fraction := by
    obtain ⟨hwhole, hfraction⟩ := List.forall_mem_append.mp (of_figures n places)
    exact ⟨not_mem_of_figures hwhole, not_mem_of_figures hfraction⟩
  have hpadded (width : Nat) (upper : Bool) (n : Int64) : '%' ∉ padLeft '0' width (hexadecimal upper n) :=
    not_mem_padLeft (not_mem_hexadecimal upper n)
  unfold writeStandard at h
  split at h
  · cases h
    exact percentsApart_of_not_mem
      (not_mem_joined hculture (not_mem_grouped hculture (hdigits _).1) (hdigits _).2)
  · cases h
    exact percentsApart_of_not_mem (not_mem_joined hculture (hdigits _).1 (hdigits _).2)
  · cases h
    exact percentsApart_percentage hculture _ _
  · exact percentsApart_of_not_mem (not_mem_integerOnly (not_mem_decimalInteger _) h)
  · exact percentsApart_of_not_mem (not_mem_integerOnly (fun n => hpadded _ _ n) h)
  next hupper =>
    cases h
    refine percentsApart_of_not_mem (not_mem_scientific hculture ?_ _ _)
    rintro rfl
    exact absurd hupper (by decide)
  case h_7 | h_8 =>
    apply percentsApart_of_not_mem
    split at h
    · cases h
      exact not_mem_toString _
    · cases h
      exact not_mem_plainFloat hculture _
    · cases h
      exact not_mem_plainFloat hculture _
    · cases h
      exact not_mem_general hculture (by split <;> decide) _ _
  · cases h

def Token.Percentless : Token → Prop
  | .percent => False
  | .literal s => '%' ∉ s
  | _ => True

omit hculture in
theorem tokens_percentless {s : List Char} (h : '%' ∉ s) : ∀ t ∈ tokens s, t.Percentless := by
  fun_induction tokens s with
  | case1 => rintro t ⟨⟩
  | case2 => exact List.forall_mem_singleton.mpr (List.not_mem_nil)
  | case3 c s ih =>
      simp only [List.mem_cons, not_or] at h
      exact List.forall_mem_cons.mpr ⟨by simpa [Token.Percentless] using h.2.1, ih h.2.2⟩
  | case4 s ih | case5 s ih | case6 s ih | case7 s ih =>
      exact List.forall_mem_cons.mpr ⟨trivial, ih (List.not_mem_of_not_mem_cons h)⟩
  | case8 s ih => exact absurd List.mem_cons_self h
  | case9 c s _ _ _ _ _ _ _ _ _ ih =>
      have hs := List.not_mem_of_not_mem_cons h
      refine List.forall_mem_cons.mpr ⟨fun hq => hs ((List.takeWhile_prefix _).subset hq), ih fun hq => hs ?_⟩
      exact (List.dropWhile_suffix _).subset (List.mem_of_mem_tail hq)
  | case10 c s _ _ _ _ _ _ _ _ ih =>
      simp only [List.mem_cons, not_or] at h
      exact List.forall_mem_cons.mpr ⟨by simpa [Token.Percentless] using h.1, ih h.2⟩

omit hculture in
theorem mem_onto {c d : Char} {pieces : List (List Char)} {piece : List Char} (hpiece : piece ∈ onto d pieces)
    (hc : c ∈ piece) : c = d ∨ ∃ p ∈ pieces, c ∈ p := by
  cases pieces with
  | nil =>
      cases List.mem_singleton.mp hpiece
      exact .inl (List.mem_singleton.mp hc)
  | cons first pieces =>
      rcases List.mem_cons.mp hpiece with rfl | hpiece
      · rcases List.mem_cons.mp hc with rfl | hc
        · exact .inl rfl
        · exact .inr ⟨first, List.mem_cons_self, hc⟩
      · exact .inr ⟨piece, List.mem_cons_of_mem _ hpiece, hc⟩

omit hculture in
theorem mem_sectionsFrom {quote : Option Char} {s piece : List Char} (hpiece : piece ∈ sectionsFrom quote s) :
    ∀ c ∈ piece, c ∈ s := by
  fun_induction sectionsFrom quote s generalizing piece with
  | case1 =>
      cases List.mem_singleton.mp hpiece
      rintro c ⟨⟩
  | case2 quote d s ih =>
      intro c hc
      rcases mem_onto hpiece hc with rfl | ⟨p, hp, hc⟩
      · exact List.mem_cons_self
      · exact List.mem_cons_of_mem d (ih hp c hc)
  | case3 =>
      cases List.mem_singleton.mp hpiece
      exact fun c hc => hc
  | case4 d s ih =>
      intro c hc
      rcases mem_onto hpiece hc with rfl | ⟨p, hp, hc⟩
      · exact List.mem_cons_self
      · rcases mem_onto hp hc with rfl | ⟨q, hq, hc⟩
        · exact List.mem_cons_of_mem _ List.mem_cons_self
        · exact List.mem_cons_of_mem _ (List.mem_cons_of_mem d (ih hq c hc))
  | case5 s _ _ ih =>
      rcases List.mem_cons.mp hpiece with rfl | hpiece
      · rintro c ⟨⟩
      · exact fun c hc => List.mem_cons_of_mem _ (ih hpiece c hc)
  | case6 d s _ _ _ ih =>
      intro c hc
      rcases mem_onto hpiece hc with rfl | ⟨p, hp, hc⟩
      · exact List.mem_cons_self
      · exact List.mem_cons_of_mem d (ih hp c hc)

omit hculture in
theorem not_mem_sectionFor (x : Float) {format : List Char} (h : '%' ∉ format) :
    '%' ∉ (sectionFor x (sections format)).1 := by
  have hmem {piece : List Char} (hpiece : piece ∈ sections format) : '%' ∉ piece :=
    fun hp => h (mem_sectionsFrom hpiece _ hp)
  unfold sectionFor
  split
  next first negative rest heq =>
    rw [heq] at hmem
    split
    · exact hmem (by simp)
    · split
      · split
        · exact hmem (by simp)
        · exact hmem (by simp)
      · exact hmem (by simp)
  next first heq =>
    rw [heq] at hmem
    exact hmem (by simp)
  next => rintro ⟨⟩

omit hculture in
theorem not_mem_fill {point : List Char} (hpoint : '%' ∉ point) {ts : List Token}
    (hts : ∀ t ∈ ts, t.Percentless) {slots : List (List Char)} (hslots : ∀ slot ∈ slots, '%' ∉ slot) :
    '%' ∉ fill point ts slots := by
  induction ts generalizing slots with
  | nil => rintro ⟨⟩
  | cons t ts ih =>
      rw [List.forall_mem_cons] at hts
      obtain ⟨ht, hts⟩ := hts
      cases t with
      | zero | hash =>
          rw [fill, List.mem_append, not_or]
          refine ⟨?_, ih hts fun slot hslot => hslots slot (List.mem_of_mem_tail hslot)⟩
          cases slots with
          | nil => rintro ⟨⟩
          | cons slot slots => exact hslots slot List.mem_cons_self
      | percent => exact ht.elim
      | comma => exact ih hts hslots
      | point =>
          rw [fill, List.mem_append, not_or]
          exact ⟨hpoint, ih hts hslots⟩
      | literal s =>
          rw [fill, List.mem_append, not_or]
          exact ⟨ht, ih hts hslots⟩

omit hculture in
theorem not_mem_singletons {s : List Char} (h : '%' ∉ s) : ∀ slot ∈ s.map ([·]), '%' ∉ slot := by
  intro slot hslot hmem
  obtain ⟨c, hc, rfl⟩ := List.mem_map.mp hslot
  cases List.mem_singleton.mp hmem
  exact h hc

omit hculture in
theorem not_mem_slots {placeholders : Nat} {digits : List Char} (h : '%' ∉ digits) :
    ∀ slot ∈ slots placeholders digits, '%' ∉ slot := by
  unfold slots
  split
  · rintro slot ⟨⟩
  · split
    · exact List.forall_mem_cons.mpr ⟨fun hs => h (List.mem_of_mem_take hs),
        not_mem_singletons fun hs => h (List.mem_of_mem_drop hs)⟩
    · refine List.forall_mem_append.mpr ⟨fun slot hslot => ?_, not_mem_singletons h⟩
      rw [List.eq_of_mem_replicate hslot]
      rintro ⟨⟩

omit hculture in
theorem not_mem_cutZeros {least : Nat} {digits : List Char} (h : '%' ∉ digits) : '%' ∉ cutZeros least digits := by
  rw [cutZeros, List.mem_append, not_or]
  exact ⟨fun hs => h (List.mem_of_mem_take hs), not_mem_rdropWhile fun hs => h (List.mem_of_mem_drop hs)⟩

theorem not_mem_writeTokens {ts : List Token} (hts : ∀ t ∈ ts, t.Percentless) (signed : Bool) (x : Float) :
    '%' ∉ writeTokens culture signed x ts := by
  have hdigits (x : Float) (places : Nat) := List.forall_mem_append.mp (ofFloat_figures x places).2
  have hwhole (x : Float) (places width : Nat) :
      '%' ∉ padLeft '0' width ((Digits.ofFloat x places).whole.dropWhile (· == '0')) :=
    not_mem_padLeft (not_mem_dropWhile (not_mem_of_figures (hdigits x places).1))
  have hfraction (x : Float) (places least : Nat) : '%' ∉ cutZeros least (Digits.ofFloat x places).fraction :=
    not_mem_cutZeros (not_mem_of_figures (hdigits x places).2)
  have hpoint {s : List Char} : '%' ∉ (if s = [] then [] else culture.decimalSeparator.toList) := by
    split
    · rintro ⟨⟩
    · exact hculture culture.decimalSeparator (by simp [Culture.texts])
  have hsign {d : Digits} : '%' ∉ (if signed then d.sign else []) := by
    split
    · exact not_mem_sign d
    · rintro ⟨⟩
  have hslots {p : Prop} [Decidable p] {count : Nat} {s : List Char} (hs : '%' ∉ s) :
      ∀ slot ∈ (if p then [grouped culture.groupSeparator.toList s] else slots count s), '%' ∉ slot := by
    split
    · exact List.forall_mem_singleton.mpr (not_mem_grouped hculture hs)
    · exact not_mem_slots hs
  unfold writeTokens
  dsimp only
  rw [List.mem_append, List.mem_append, not_or, not_or]
  refine ⟨⟨hsign, not_mem_fill hpoint ?_ (hslots (hwhole _ _ _))⟩,
    not_mem_fill hpoint ?_ (not_mem_singletons (hfraction _ _ _))⟩
  · exact fun t ht => hts t ((List.takeWhile_prefix _).subset ht)
  · exact fun t ht => hts t ((List.dropWhile_suffix _).subset ht)

/-- A format without percent signs writes at most the one of a percentage. -/
theorem percentsApart_write {format : String} (hformat : '%' ∉ format.toList) {n : Number} {s : String}
    (h : write culture format n = .ok s) : PercentsApart s.toList := by
  unfold write at h
  split at h
  next letter precision _ =>
    cases hs : writeStandard culture format letter precision n with
    | error e =>
        rw [hs] at h
        cases h
    | ok t =>
        rw [hs] at h
        cases h
        rw [String.toList_ofList]
        exact percentsApart_writeStandard hculture hs
  · cases h
    rw [String.toList_ofList]
    exact percentsApart_of_not_mem
      (not_mem_writeTokens hculture (tokens_percentless (not_mem_sectionFor _ hformat)) _ _)

end Number

end Phrasebook
