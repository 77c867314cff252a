import Mathlib.Data.List.Forall2
import Phrasebook.Proofs.Condition.Padding
import Phrasebook.Proofs.Text.Digits

namespace Phrasebook

open Text

def Comparison.signs (c : Comparison) : List (List Char) :=
  if c = notEqual then [c.symbol.toList, ['<', '>']] else [c.symbol.toList]

namespace Arithmetic

structure Blanks where
  text : List Char
  isBlank_of_mem : ∀ c ∈ text, isBlank c = true

/-- Digits, and after them a point with digits if there is a fraction. -/
structure Numeral where
  whole : List Char
  fraction : List Char
  ne_nil : whole ≠ []
  isDigit_whole : ∀ c ∈ whole, isDigit c = true
  isDigit_fraction : ∀ c ∈ fraction, isDigit c = true

structure WrittenStep where
  before : Blanks
  operation : Operation
  between : Blanks
  operand : Numeral

/-- One or more steps, a comparison and a target, with blanks anywhere between them. -/
structure Spelling where
  steps : List WrittenStep
  ne_nil : steps ≠ []
  beforeSign : Blanks
  comparison : Comparison
  sign : List Char
  isSign : sign ∈ comparison.signs
  beforeTarget : Blanks
  negative : Bool
  target : Numeral
  after : Blanks

def fractionText : List Char → List Char
  | [] => []
  | c :: s => '.' :: c :: s

def Numeral.text (n : Numeral) : List Char :=
  n.whole ++ fractionText n.fraction

def WrittenStep.text (w : WrittenStep) : List Char :=
  w.before.text ++ w.operation.symbol :: (w.between.text ++ w.operand.text)

def minus (negative : Bool) : List Char :=
  if negative then ['-'] else []

def Spelling.targetText (p : Spelling) : List Char :=
  minus p.negative ++ p.target.text

def Spelling.comparisonText (p : Spelling) : List Char :=
  p.beforeSign.text ++ (p.sign ++ (p.beforeTarget.text ++ (p.targetText ++ p.after.text)))

def Spelling.text (p : Spelling) : List Char :=
  p.steps.flatMap WrittenStep.text ++ p.comparisonText

/-- The steps of a condition are those of its spelling in their order, and so are its comparison and
its target. Decimals are read as any number is. -/
structure Spelling.Denotes (p : Spelling) (a : Arithmetic) : Prop where
  operations : List.Forall₂ (fun w step => step.1 = w.operation ∧ readFloat? w.operand.text = some step.2)
    p.steps a.operations
  comparison : a.comparison = p.comparison
  target : readFloat? p.targetText = some a.target

variable {s rest sign : List Char} {c : Comparison}

theorem Blanks.trimStart_append (w : Blanks) (h : ∀ c ∈ s.head?, isBlank c = false) :
    trimStart (w.text ++ s) = s := by
  rw [trimStart_blanks_append w.isBlank_of_mem, trimStart_of_head? h]

theorem exists_blanks (s : List Char) : ∃ w : Blanks, w.text ++ trimStart s = s :=
  ⟨⟨s.takeWhile isBlank, fun _ => List.mem_takeWhile_imp⟩, blanks_append_trimStart s⟩

theorem Blanks.forall_head?_append {P : Char → Prop} (w : Blanks) (hblank : ∀ c, isBlank c = true → P c)
    (hs : ∀ c ∈ s.head?, P c) : ∀ c ∈ (w.text ++ s).head?, P c := by
  have hw := w.isBlank_of_mem
  cases htext : w.text with
  | nil => exact hs
  | cons b t =>
      rintro _ ⟨⟩
      exact hblank b (hw b (htext ▸ List.mem_cons_self))

/-- A text that does not go on with a decimal in front of it. -/
def Stops (s : List Char) : Prop :=
  ∀ c ∈ s.head?, isDigit c = false ∧ c ≠ '.'

theorem stops_cons {c : Char} (hdigit : isDigit c = false) (hpoint : c ≠ '.') : Stops (c :: s) := by
  rintro d ⟨⟩
  exact ⟨hdigit, hpoint⟩

theorem stops_symbol (op : Operation) : Stops (op.symbol :: s) := by
  cases op <;> exact stops_cons rfl (by decide)

theorem stops_of_isBlank {c : Char} (h : isBlank c = true) : isDigit c = false ∧ c ≠ '.' := by
  refine ⟨Bool.not_eq_true _ ▸ not_isDigit_of_isBlank h, ?_⟩
  rintro rfl
  cases h

theorem Blanks.stops (w : Blanks) : Stops w.text :=
  fun c hc => stops_of_isBlank (w.isBlank_of_mem c (List.mem_of_mem_head? hc))

theorem Blanks.stops_append (w : Blanks) (h : Stops s) : Stops (w.text ++ s) :=
  w.forall_head?_append (fun _ => stops_of_isBlank) h

def cutFraction : List Char → List Char × List Char
  | '.' :: t => if t.head?.any isDigit then t.span isDigit else ([], '.' :: t)
  | s => ([], s)

theorem unsigned?_of_span {whole after : List Char} (hne : whole ≠ []) (hspan : s.span isDigit = (whole, after)) :
    unsigned? s = some
      (Decimal.nearest ⟨digitsValue (whole ++ (cutFraction after).1), -(cutFraction after).1.length⟩,
        (cutFraction after).2) := by
  obtain ⟨c, whole, rfl⟩ := List.exists_cons_of_ne_nil hne
  rw [unsigned?, hspan]
  fun_cases cutFraction after <;> simp_all

theorem cutFraction_append {fraction : List Char} (hfraction : ∀ c ∈ fraction, isDigit c = true)
    (hrest : Stops rest) : cutFraction (fractionText fraction ++ rest) = (fraction, rest) := by
  cases fraction with
  | nil =>
      rw [fractionText, List.nil_append, cutFraction]
      rintro t rfl
      exact (hrest '.' rfl).2 rfl
  | cons d t =>
      have hd : (d :: t ++ rest).head?.any isDigit = true := hfraction d List.mem_cons_self
      rw [fractionText, List.cons_append, cutFraction, if_pos hd]
      exact span_isDigit_append hfraction fun c hc => (hrest c hc).1

theorem fractionText_cutFraction (s : List Char) :
    fractionText (cutFraction s).1 ++ (cutFraction s).2 = s ∧ ∀ c ∈ (cutFraction s).1, isDigit c = true := by
  fun_cases cutFraction s with
  | case1 t hany =>
      cases t with
      | nil => cases hany
      | cons d t =>
          have hd : isDigit d = true := hany
          rw [List.span_eq_takeWhile_dropWhile, List.takeWhile_cons_of_pos hd, List.dropWhile_cons_of_pos hd]
          refine ⟨?_, List.forall_mem_cons.mpr ⟨hd, fun _ => List.mem_takeWhile_imp⟩⟩
          rw [fractionText, List.cons_append, List.cons_append, List.takeWhile_append_dropWhile]
  | case2 | case3 => exact ⟨rfl, by rintro _ ⟨⟩⟩

namespace Numeral

def value (n : Numeral) : Float :=
  Decimal.nearest ⟨digitsValue (n.whole ++ n.fraction), -n.fraction.length⟩

theorem exists_cons (n : Numeral) : ∃ d t, n.text = d :: t ∧ isDigit d = true := by
  obtain ⟨d, t, hwhole⟩ := List.exists_cons_of_ne_nil n.ne_nil
  refine ⟨d, t ++ fractionText n.fraction, ?_, n.isDigit_whole d (hwhole ▸ List.mem_cons_self)⟩
  rw [text, hwhole, List.cons_append]

theorem head?_append_not_blank (n : Numeral) (s : List Char) : ∀ c ∈ (n.text ++ s).head?, isBlank c = false := by
  obtain ⟨d, t, htext, hdigit⟩ := n.exists_cons
  rw [htext]
  rintro _ ⟨⟩
  rw [← Bool.not_eq_true]
  exact fun hblank => not_isDigit_of_isBlank hblank hdigit

theorem unsigned?_text (n : Numeral) (h : Stops rest) : unsigned? (n.text ++ rest) = some (n.value, rest) := by
  have hspan : (n.text ++ rest).span isDigit = (n.whole, fractionText n.fraction ++ rest) := by
    rw [text, List.append_assoc]
    refine span_isDigit_append n.isDigit_whole fun c hc => ?_
    cases hfraction : n.fraction with
    | nil => exact (h c (by rwa [hfraction] at hc)).1
    | cons d t =>
        rw [hfraction] at hc
        cases hc
        rfl
  rw [unsigned?_of_span n.ne_nil hspan, cutFraction_append n.isDigit_fraction h]
  rfl

end Numeral

theorem exists_of_unsigned? {x : Float} (h : unsigned? s = some (x, rest)) :
    ∃ n : Numeral, n.text ++ rest = s ∧ n.value = x := by
  by_cases hne : s.takeWhile isDigit = []
  · rw [unsigned?, List.span_eq_takeWhile_dropWhile, hne] at h
    cases h
  · rw [unsigned?_of_span hne (List.span_eq_takeWhile_dropWhile ..)] at h
    obtain ⟨hafter, hfraction⟩ := fractionText_cutFraction (s.dropWhile isDigit)
    cases h
    refine ⟨⟨s.takeWhile isDigit, _, hne, fun _ => List.mem_takeWhile_imp, hfraction⟩, ?_, rfl⟩
    rw [Numeral.text, List.append_assoc, hafter, List.takeWhile_append_dropWhile]

theorem ofSymbol?_eq_some_iff {a : Char} {op : Operation} : Operation.ofSymbol? a = some op ↔ a = op.symbol := by
  constructor
  · intro h
    unfold Operation.ofSymbol? at h
    split at h <;> cases h <;> rfl
  · rintro rfl
    cases op <;> rfl

namespace WrittenStep

def value (w : WrittenStep) : Operation × Float :=
  (w.operation, w.operand.value)

theorem step?_text (w : WrittenStep) (h : Stops rest) :
    step? (trimStart (w.text ++ rest)) = some (w.value, rest) := by
  have hsymbol : trimStart (w.before.text ++ w.operation.symbol :: (w.between.text ++ w.operand.text ++ rest)) =
      w.operation.symbol :: (w.between.text ++ w.operand.text ++ rest) := by
    refine w.before.trimStart_append ?_
    rintro c ⟨⟩
    cases w.operation <;> rfl
  have hoperand : trimStart (w.between.text ++ (w.operand.text ++ rest)) = w.operand.text ++ rest :=
    w.between.trimStart_append (w.operand.head?_append_not_blank rest)
  rw [text, List.append_assoc, List.cons_append, hsymbol, step?, ofSymbol?_eq_some_iff.mpr rfl, Option.bind_some,
    List.append_assoc, hoperand, w.operand.unsigned?_text h]
  rfl

theorem stops_append (w : WrittenStep) (s : List Char) : Stops (w.text ++ s) := by
  rw [text, List.append_assoc]
  exact w.before.stops_append (stops_symbol w.operation)

end WrittenStep

theorem exists_of_step? {step : Operation × Float} (h : step? (trimStart s) = some (step, rest)) :
    ∃ w : WrittenStep, w.text ++ rest = s ∧ w.value = step := by
  obtain ⟨before, hbefore⟩ := exists_blanks s
  cases htrim : trimStart s with
  | nil =>
      rw [htrim] at h
      cases h
  | cons a t =>
      rw [htrim, step?] at h
      obtain ⟨op, hop, h⟩ := Option.bind_eq_some_iff.mp h
      obtain ⟨⟨x, _⟩, hunsigned, ⟨⟩⟩ := Option.map_eq_some_iff.mp h
      obtain ⟨operand, hoperand, rfl⟩ := exists_of_unsigned? hunsigned
      obtain ⟨between, hbetween⟩ := exists_blanks t
      refine ⟨⟨before, op, between, operand⟩, ?_, rfl⟩
      rw [WrittenStep.text, List.append_assoc, List.cons_append, List.append_assoc, hoperand, hbetween,
        ← ofSymbol?_eq_some_iff.mp hop, ← htrim, hbefore]

theorem stops_flatMap_append (ws : List WrittenStep) (h : Stops s) : Stops (ws.flatMap WrittenStep.text ++ s) := by
  cases ws with
  | nil => exact h
  | cons w ws =>
      rw [List.flatMap_cons, List.append_assoc]
      exact w.stops_append _

theorem steps_text {n : Nat} {ws : List WrittenStep} (hn : ws.length ≤ n) (hstops : Stops rest)
    (hrest : step? (trimStart rest) = none) :
    steps n (ws.flatMap WrittenStep.text ++ rest) = (ws.map WrittenStep.value, rest) := by
  induction ws generalizing n with
  | nil =>
      cases n with
      | zero => rfl
      | succ n =>
          rw [List.flatMap_nil, List.nil_append, steps, hrest]
          rfl
  | cons w ws ih =>
      cases n with
      | zero => cases hn
      | succ n =>
          rw [List.flatMap_cons, List.append_assoc, steps, w.step?_text (stops_flatMap_append ws hstops)]
          dsimp only
          rw [ih (Nat.le_of_succ_le_succ hn)]
          rfl

theorem exists_of_steps {n : Nat} {ops : List (Operation × Float)} (h : steps n s = (ops, rest)) :
    ∃ ws : List WrittenStep, ws.flatMap WrittenStep.text ++ rest = s ∧ ws.map WrittenStep.value = ops := by
  induction n generalizing s ops with
  | zero =>
      cases h
      exact ⟨[], rfl, rfl⟩
  | succ n ih =>
      rw [steps] at h
      split at h
      next step after hstep =>
        obtain ⟨w, rfl, rfl⟩ := exists_of_step? hstep
        cases h
        obtain ⟨ws, htext, hvalue⟩ := ih rfl
        refine ⟨w :: ws, ?_, congrArg (w.value :: ·) hvalue⟩
        rw [List.flatMap_cons, List.append_assoc, htext]
      next =>
        cases h
        exact ⟨[], rfl, rfl⟩

theorem length_le_flatMap (ws : List WrittenStep) : ws.length ≤ (ws.flatMap WrittenStep.text).length := by
  induction ws with
  | nil => exact Nat.le_refl _
  | cons w ws ih =>
      rw [List.flatMap_cons, List.length_append, List.length_cons, WrittenStep.text, List.length_append,
        List.length_cons]
      omega

theorem head?_sign_append (h : sign ∈ c.signs) (s : List Char) :
    ∀ a ∈ (sign ++ s).head?, a ∈ ['!', '<', '>', '='] := by
  have hsigns : ∀ sign ∈ c.signs, sign ≠ [] ∧ ∀ a ∈ sign, a ∈ ['!', '<', '>', '='] := by
    cases c <;> decide
  obtain ⟨hne, hletters⟩ := hsigns sign h
  obtain ⟨a, t, rfl⟩ := List.exists_cons_of_ne_nil hne
  rintro b ⟨⟩
  exact hletters a List.mem_cons_self

theorem stops_sign_append (h : sign ∈ c.signs) (s : List Char) : Stops (sign ++ s) := by
  have hstops : ∀ a ∈ ['!', '<', '>', '='], isDigit a = false ∧ a ≠ '.' := by decide
  exact fun a ha => hstops a (head?_sign_append h s a ha)

theorem head?_sign_append_not_blank (h : sign ∈ c.signs) (s : List Char) :
    ∀ a ∈ (sign ++ s).head?, isBlank a = false := by
  have hblank : ∀ a ∈ ['!', '<', '>', '='], isBlank a = false := by decide
  exact fun a ha => hblank a (head?_sign_append h s a ha)

theorem step?_sign_append (h : sign ∈ c.signs) (s : List Char) : step? (sign ++ s) = none := by
  have hsymbol : ∀ a ∈ ['!', '<', '>', '='], Operation.ofSymbol? a = none := by decide
  have hhead := head?_sign_append h s
  generalize sign ++ s = t at *
  cases t with
  | nil => rfl
  | cons a t =>
      rw [step?, hsymbol a (hhead a rfl)]
      rfl

theorem read?_sign_append (h : sign ∈ c.signs) (hs : ∀ a ∈ s.head?, a ∉ ['=', '>']) :
    Comparison.read? (sign ++ s) = some (c, s) := by
  have hequal (t : List Char) : s ≠ '=' :: t := by
    rintro rfl
    exact hs '=' rfl (by decide)
  have hgreater (t : List Char) : s ≠ '>' :: t := by
    rintro rfl
    exact hs '>' rfl (by decide)
  cases c with
  | equal | lessOrEqual | greaterOrEqual =>
      cases List.mem_singleton.mp h
      rfl
  | notEqual =>
      rcases List.mem_pair.mp h with rfl | rfl <;> rfl
  | less =>
      cases List.mem_singleton.mp h
      change Comparison.read? ('<' :: s) = _
      rw [Comparison.read?]
      · exact hgreater
      · exact hequal
  | greater =>
      cases List.mem_singleton.mp h
      change Comparison.read? ('>' :: s) = _
      rw [Comparison.read?]
      exact hequal

theorem exists_of_read? (h : Comparison.read? s = some (c, rest)) : ∃ sign ∈ c.signs, sign ++ rest = s := by
  unfold Comparison.read? at h
  split at h <;> cases h
  next => exact ⟨['!', '='], by decide, rfl⟩
  next => exact ⟨['<', '>'], by decide, rfl⟩
  next => exact ⟨['<', '='], by decide, rfl⟩
  next => exact ⟨['>', '='], by decide, rfl⟩
  next => exact ⟨['='], by decide, rfl⟩
  next => exact ⟨['<'], by decide, rfl⟩
  next => exact ⟨['>'], by decide, rfl⟩

namespace Numeral

def signedValue (n : Numeral) (negative : Bool) : Float :=
  if negative then -n.value else n.value

theorem signed?_text (n : Numeral) (negative : Bool) (h : Stops rest) :
    signed? (minus negative ++ (n.text ++ rest)) = some (n.signedValue negative, rest) := by
  have hread := n.unsigned?_text h
  cases negative with
  | true =>
      rw [minus, if_pos rfl, List.singleton_append, signed?, hread, signedValue, if_pos rfl]
      rfl
  | false =>
      rw [minus, if_neg Bool.false_ne_true, List.nil_append, signedValue, if_neg Bool.false_ne_true]
      obtain ⟨d, t, htext, hdigit⟩ := n.exists_cons
      rw [htext, List.cons_append] at hread ⊢
      rw [signed?, hread]
      rintro _ ⟨⟩
      cases hdigit

theorem readDecimal?_text (n : Numeral) :
    readDecimal? n.text = some ⟨digitsValue (n.whole ++ n.fraction), -n.fraction.length⟩ := by
  have hspan : n.text.span isDigit = (n.whole, fractionText n.fraction) := by
    refine span_isDigit_append n.isDigit_whole ?_
    cases n.fraction with
    | nil => rintro _ ⟨⟩
    | cons => rintro _ ⟨⟩; rfl
  rw [readDecimal?, hspan]
  cases hfraction : n.fraction with
  | nil => simp [fractionText, n.ne_nil, readExponent?]
  | cons d t =>
      have hdigits : (d :: t).span isDigit = (d :: t, []) := by
        have h := @span_isDigit_append n.fraction [] n.isDigit_fraction (by rintro _ ⟨⟩)
        rwa [List.append_nil, hfraction] at h
      simp only [fractionText, hdigits, n.ne_nil, false_and, if_false, readExponent?, Option.map_some, Int.zero_sub]

theorem lowerAscii_text_notMem (n : Numeral) : String.ofList (lowerAscii n.text) ∉ ["inf", "infinity", "nan"] := by
  have hhead : ∀ word ∈ ["inf", "infinity", "nan"], ∀ d ∈ word.toList.head?, d ∉ digits := by decide
  obtain ⟨d, t, htext, hdigit⟩ := n.exists_cons
  intro hmem
  refine hhead _ hmem d.toLower ?_ (toLower_mem_digits hdigit)
  rw [htext, String.toList_ofList]
  rfl

theorem readFloat?_text (n : Numeral) (negative : Bool) :
    readFloat? (minus negative ++ n.text) = some (n.signedValue negative) := by
  have hsign : readSign (minus negative ++ n.text) = (negative, n.text) :=
    readSign_append n.ne_nil n.isDigit_whole negative (fractionText n.fraction)
  have hword := n.lowerAscii_text_notMem
  rw [readFloat?, hsign]
  refine Option.map_eq_some_iff.mpr ⟨n.value, ?_, rfl⟩
  split
  next heq => exact (hword (by simp [heq])).elim
  next heq => exact (hword (by simp [heq])).elim
  next heq => exact (hword (by simp [heq])).elim
  next =>
    rw [n.readDecimal?_text]
    rfl

end Numeral

theorem exists_of_signed? {x : Float} (h : signed? s = some (x, rest)) :
    ∃ negative, ∃ n : Numeral, minus negative ++ (n.text ++ rest) = s ∧ n.signedValue negative = x := by
  unfold signed? at h
  split at h
  next t =>
    obtain ⟨⟨y, _⟩, hunsigned, ⟨⟩⟩ := Option.map_eq_some_iff.mp h
    obtain ⟨n, rfl, rfl⟩ := exists_of_unsigned? hunsigned
    exact ⟨true, n, rfl, if_pos rfl⟩
  next =>
    obtain ⟨n, htext, hvalue⟩ := exists_of_unsigned? h
    exact ⟨false, n, htext, (if_neg Bool.false_ne_true).trans hvalue⟩

namespace Spelling

def arithmetic (p : Spelling) : Arithmetic :=
  ⟨p.steps.map WrittenStep.value, p.comparison, p.target.signedValue p.negative⟩

theorem denotes_arithmetic (p : Spelling) : p.Denotes p.arithmetic where
  operations := by
    have hoperand (n : Numeral) : readFloat? n.text = some n.value := by
      have h := n.readFloat?_text false
      rwa [minus, if_neg Bool.false_ne_true, List.nil_append, Numeral.signedValue, if_neg Bool.false_ne_true] at h
    rw [arithmetic, List.forall₂_map_right_iff]
    exact List.forall₂_same.mpr fun w _ => ⟨rfl, hoperand w.operand⟩
  comparison := rfl
  target := p.target.readFloat?_text p.negative

def afterSign (p : Spelling) : List Char :=
  p.beforeTarget.text ++ (p.targetText ++ p.after.text)

theorem head?_targetText_append (p : Spelling) (s : List Char) :
    ∀ a ∈ (p.targetText ++ s).head?, a = '-' ∨ isDigit a = true := by
  obtain ⟨d, t, htext, hdigit⟩ := p.target.exists_cons
  rw [targetText, minus, htext]
  cases p.negative with
  | true =>
      rintro a ⟨⟩
      exact .inl rfl
  | false =>
      rintro a ⟨⟩
      exact .inr hdigit

/-- Nothing behind the sign makes it a longer one. -/
theorem head?_afterSign (p : Spelling) : ∀ a ∈ p.afterSign.head?, a ∉ ['=', '>'] := by
  have hnot : ∀ a ∈ ['=', '>'], isBlank a = false ∧ a ≠ '-' ∧ isDigit a = false := by decide
  refine p.beforeTarget.forall_head?_append (fun a hblank hmem => ?_) fun a ha hmem => ?_
  · rw [(hnot a hmem).1] at hblank
    cases hblank
  · rcases p.head?_targetText_append p.after.text a ha with hminus | hdigit
    · exact (hnot a hmem).2.1 hminus
    · rw [(hnot a hmem).2.2] at hdigit
      cases hdigit

theorem trimStart_comparisonText (p : Spelling) : trimStart p.comparisonText = p.sign ++ p.afterSign :=
  p.beforeSign.trimStart_append (head?_sign_append_not_blank p.isSign p.afterSign)

theorem trimStart_afterSign (p : Spelling) : trimStart p.afterSign = p.targetText ++ p.after.text := by
  refine p.beforeTarget.trimStart_append fun a ha => ?_
  rcases p.head?_targetText_append p.after.text a ha with rfl | hdigit
  · rfl
  · rw [← Bool.not_eq_true]
    exact fun hblank => not_isDigit_of_isBlank hblank hdigit

theorem parse?_text (p : Spelling) : parse? p.text = some p.arithmetic := by
  have hsteps : Arithmetic.steps p.text.length p.text = (p.steps.map WrittenStep.value, p.comparisonText) := by
    refine steps_text ?_ (p.beforeSign.stops_append (stops_sign_append p.isSign p.afterSign)) ?_
    · have := length_le_flatMap p.steps
      rw [text, List.length_append]
      omega
    · rw [trimStart_comparisonText]
      exact step?_sign_append p.isSign p.afterSign
  have hcomparison : Comparison.read? (trimStart p.comparisonText) = some (p.comparison, p.afterSign) := by
    rw [trimStart_comparisonText]
    exact read?_sign_append p.isSign p.head?_afterSign
  have htarget : signed? (trimStart p.afterSign) = some (p.target.signedValue p.negative, p.after.text) := by
    rw [trimStart_afterSign, targetText, List.append_assoc]
    exact p.target.signed?_text p.negative p.after.stops
  have hafter : trimStart p.after.text = [] := List.dropWhile_eq_nil_iff.mpr p.after.isBlank_of_mem
  obtain ⟨w, ws, hws⟩ := List.exists_cons_of_ne_nil p.ne_nil
  rw [parse?, hsteps, hws, List.map_cons]
  dsimp only
  rw [hcomparison, Option.bind_some, htarget, Option.bind_some, if_pos hafter, arithmetic, hws]
  rfl

end Spelling

theorem exists_of_parse? {a : Arithmetic} (h : parse? s = some a) : ∃ p : Spelling, p.text = s := by
  rw [parse?] at h
  split at h
  next => cases h
  next ops after hne hsteps =>
    obtain ⟨ws, hws, hvalue⟩ := exists_of_steps hsteps
    obtain ⟨⟨c, afterSign⟩, hread, h⟩ := Option.bind_eq_some_iff.mp h
    obtain ⟨⟨x, rest⟩, hsigned, h⟩ := Option.bind_eq_some_iff.mp h
    obtain ⟨hrest, -⟩ := Option.ite_none_right_eq_some.mp h
    obtain ⟨sign, hsign, htext⟩ := exists_of_read? hread
    obtain ⟨negative, n, htarget, -⟩ := exists_of_signed? hsigned
    obtain ⟨beforeSign, hbeforeSign⟩ := exists_blanks after
    obtain ⟨beforeTarget, hbeforeTarget⟩ := exists_blanks afterSign
    refine ⟨⟨ws, ?_, beforeSign, c, sign, hsign, beforeTarget, negative, n, ⟨rest, ?_⟩⟩, ?_⟩
    · rintro rfl
      exact hne hvalue.symm
    · exact List.dropWhile_eq_nil_iff.mp hrest
    · rw [Spelling.text, Spelling.comparisonText, Spelling.targetText, List.append_assoc (minus negative)]
      dsimp only
      rw [htarget, hbeforeTarget, htext, hbeforeSign, hws]

/-- What is accepted is exactly what is spelled as steps, a comparison and a target, and the condition
has these steps in their order, this comparison and this target. -/
theorem accepts_spellings :
    (∀ s, (parse? s).isSome ↔ ∃ p : Spelling, p.text = s) ∧
      ∀ p : Spelling, ∃ a, parse? p.text = some a ∧ p.Denotes a := by
  refine ⟨fun s => ⟨fun h => ?_, ?_⟩, fun p => ⟨p.arithmetic, p.parse?_text, p.denotes_arithmetic⟩⟩
  · obtain ⟨a, ha⟩ := Option.isSome_iff_exists.mp h
    exact exists_of_parse? ha
  · rintro ⟨p, rfl⟩
    rw [p.parse?_text]
    rfl

end Arithmetic

end Phrasebook
