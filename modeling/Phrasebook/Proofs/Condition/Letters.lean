import Mathlib.Data.List.TakeDrop
import Phrasebook.Condition.Interval
import Phrasebook.Proofs.Calendar.SpanForms
import Phrasebook.Proofs.Text.Blank

namespace Phrasebook

open Text

/-- Of a text nothing but small or capital letters among the given ones is taken. -/
def Takes (letters s rest : List Char) : Prop :=
  ∀ c ∈ s, c.toLower ∈ letters ∨ c ∈ rest

def digits : List Char :=
  ['0', '1', '2', '3', '4', '5', '6', '7', '8', '9']

def numberLetters : List Char :=
  digits ++ ['.', '+', '-', 'e', 'i', 'n', 'f', 't', 'y', 'a']

def spanLetters : List Char :=
  digits ++ ['.', ',', '-', 'p', 'y', 'm', 'w', 'd', 't', 'h', 's']

variable {letters s rest rest' : List Char} {c : Char}

theorem Takes.refl : Takes letters s s :=
  fun _ hc => .inr hc

theorem Takes.trans (h : Takes letters s rest) (h' : Takes letters rest rest') : Takes letters s rest' :=
  fun c hc => (h c hc).elim .inl (h' c)

theorem Takes.cons (hc : c.toLower ∈ letters) (h : Takes letters s rest) : Takes letters (c :: s) rest :=
  List.forall_mem_cons.mpr ⟨.inl hc, h⟩

theorem mem_digits (h : isDigit c = true) : c ∈ digits := by
  have hdigits : ∀ n ≤ 57, 48 ≤ n → Char.ofNat n ∈ digits := by decide
  rw [isDigit, Bool.and_eq_true, decide_eq_true_iff, decide_eq_true_iff] at h
  have hmem := hdigits c.toNat h.2 h.1
  rwa [Char.ofNat_toNat] at hmem

theorem toLower_mem_digits (h : isDigit c = true) : c.toLower ∈ digits := by
  have hsame : ∀ d ∈ digits, d.toLower ∈ digits := by decide
  exact hsame c (mem_digits h)

theorem takes_span (hletters : digits ⊆ letters) (s : List Char) : Takes letters s (s.span isDigit).2 := by
  intro c hc
  rw [List.span_eq_takeWhile_dropWhile]
  rw [← List.takeWhile_append_dropWhile (p := isDigit) (l := s), List.mem_append] at hc
  exact hc.imp_left fun hc => hletters (toLower_mem_digits (List.mem_takeWhile_imp hc))

theorem takes_readSign (hminus : '-' ∈ letters) (hplus : '+' ∈ letters) (s : List Char) :
    Takes letters s (readSign s).2 := by
  fun_cases readSign s with
  | case1 s => exact .cons hminus .refl
  | case2 s => exact .cons hplus .refl
  | case3 => exact .refl

theorem takes_of_readExponent? {n : Int} (h : readExponent? s = some n) : Takes numberLetters s [] := by
  cases s with
  | nil => exact .refl
  | cons c s =>
      obtain ⟨hc, h⟩ := Option.ite_none_right_eq_some.mp h
      have hletter : c.toLower ∈ numberLetters := by
        rcases hc with rfl | rfl <;> decide
      obtain ⟨m, hm, -⟩ := Option.map_eq_some_iff.mp h
      obtain ⟨⟨-, hall⟩, -⟩ := Option.ite_none_right_eq_some.mp hm
      refine .cons hletter ((takes_readSign (by decide) (by decide) s).trans fun d hd => .inl ?_)
      exact List.mem_append_left _ (toLower_mem_digits (List.all_eq_true.mp hall d hd))

theorem takes_of_readDecimal? {d : Decimal} (h : readDecimal? s = some d) : Takes numberLetters s [] := by
  have hdigits : digits ⊆ numberLetters := List.subset_append_left _ _
  have hspan := takes_span hdigits s
  unfold readDecimal? at h
  split at h
  next whole rest hwhole =>
    rw [hwhole] at hspan
    split at h
    next fraction rest' hfraction =>
      obtain ⟨-, h⟩ := Option.ite_none_left_eq_some.mp h
      obtain ⟨exponent, hexponent, -⟩ := Option.map_eq_some_iff.mp h
      have hpoint : Takes numberLetters rest rest' := by
        split at hfraction
        next rest =>
          have hrest := takes_span hdigits rest
          rw [hfraction] at hrest
          exact .cons (by decide) hrest
        next =>
          cases hfraction
          exact .refl
      exact (hspan.trans hpoint).trans (takes_of_readExponent? hexponent)

theorem letters_of_readFloat? {x : Float} (h : readFloat? s = some x) : ∀ c ∈ s, c.toLower ∈ numberLetters := by
  have hwords : ∀ word ∈ ["inf", "infinity", "nan"], ∀ d ∈ word.toList, d ∈ numberLetters := by decide
  have hword {word : String} (hword : word ∈ ["inf", "infinity", "nan"])
      (h : String.ofList (lowerAscii (readSign s).2) = word) : Takes numberLetters (readSign s).2 [] := by
    intro c hc
    refine .inl (hwords word hword _ ?_)
    rw [← h, String.toList_ofList]
    exact List.mem_map_of_mem hc
  have hmagnitude : Takes numberLetters (readSign s).2 [] := by
    unfold readFloat? at h
    obtain ⟨x, hx, -⟩ := Option.map_eq_some_iff.mp h
    split at hx
    next heq => exact hword (by simp) heq
    next heq => exact hword (by simp) heq
    next heq => exact hword (by simp) heq
    next =>
      obtain ⟨d, hd, -⟩ := Option.map_eq_some_iff.mp hx
      exact takes_of_readDecimal? hd
  intro c hc
  have htakes := (takes_readSign (by decide) (by decide) s).trans hmagnitude
  simpa using htakes c hc

namespace SpanForm

def Lettered (s : List Char) : Prop :=
  ∀ c ∈ s, c.toLower ∈ spanLetters

theorem Lettered.append {s t : List Char} (hs : Lettered s) (ht : Lettered t) : Lettered (s ++ t) :=
  List.forall_mem_append.mpr ⟨hs, ht⟩

theorem Lettered.cons {c : Char} {s : List Char} (hc : c.toLower ∈ spanLetters) (hs : Lettered s) :
    Lettered (c :: s) :=
  List.forall_mem_cons.mpr ⟨hc, hs⟩

theorem Lettered.nil : Lettered [] :=
  List.forall_mem_nil _

theorem Numeral.lettered (n : Numeral) : Lettered n.digits :=
  fun c hc => List.mem_append_left _ (toLower_mem_digits (n.isDigit_of_mem c hc))

theorem lettered_component {c : Char} (hc : c.toLower ∈ spanLetters) (n : Option Count) :
    Lettered (component c n) := by
  cases n with
  | none => exact .nil
  | some n => exact n.lettered.append (.cons hc .nil)

theorem Seconds.lettered (s : Seconds) : Lettered s.spelling := by
  refine s.whole.lettered.append (.append ?_ (.cons (by decide) .nil))
  cases s.fraction with
  | none => exact .nil
  | some f =>
      have hmark : f.mark.toLower ∈ spanLetters := by
        rcases f.isMark with h | h
        · rw [h]
          decide
        · rw [h]
          decide
      exact .cons hmark f.lettered

theorem Clock.lettered (c : Clock) : Lettered c.spelling := by
  refine (lettered_component (by decide) c.hours).append (.append (lettered_component (by decide) c.minutes) ?_)
  cases c.seconds with
  | none => exact .nil
  | some s => exact s.lettered

theorem Parts.lettered (p : Parts) : Lettered p.spelling := by
  refine .cons (by decide) (.append (lettered_component (by decide) p.years)
    (.append (lettered_component (by decide) p.months) (.append (lettered_component (by decide) p.weeks)
      (.append (lettered_component (by decide) p.days) ?_))))
  cases p.clock with
  | none => exact .nil
  | some c => exact .cons (by decide) c.lettered

theorem lettered (f : SpanForm) : Lettered f.spelling := by
  rw [spelling]
  split
  · exact .cons (by decide) f.toParts.lettered
  · exact f.toParts.lettered

end SpanForm

/-- A duration is written with digits, the letters of its units and the marks of fractions. -/
theorem letters_of_read {x : Span} (h : Span.read (String.ofList s) = .ok (some x)) :
    ∀ c ∈ s, isBlank c = true ∨ c.toLower ∈ spanLetters := by
  obtain ⟨f, hspelling, -⟩ := SpanForm.exists_of_read h
  rw [String.toList_ofList] at hspelling
  intro c hc
  cases hblank : isBlank c with
  | true => exact .inl rfl
  | false =>
      refine .inr (f.lettered c ?_)
      rw [hspelling]
      exact mem_trim hblank hc

end Phrasebook
