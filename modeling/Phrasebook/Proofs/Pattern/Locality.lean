import Phrasebook.Proofs.Pattern.ReadBack

namespace Phrasebook.Reader

def filler : Char := 'x'

def Separates (stops : List Char) : Prop :=
  ∀ c ∈ ['\\', filler], c ∉ stops

instance {stops : List Char} : Decidable (Separates stops) :=
  inferInstanceAs (Decidable (∀ c ∈ ['\\', filler], c ∉ stops))

theorem Separates.backslash {stops : List Char} (h : Separates stops) : '\\' ∉ stops :=
  h '\\' List.mem_cons_self

theorem Separates.filler {stops : List Char} (h : Separates stops) : filler ∉ stops :=
  h _ (List.mem_cons_of_mem _ List.mem_cons_self)

/-- A text no backslash at whose end would take away what follows. -/
def IsWhole (s : List Char) : Prop :=
  ∃ t, Spells [] s t

section

variable {marks stops s t u v w r : List Char} {c d : Char}

theorem Spells.isWhole (h : Spells stops s t) : IsWhole s := by
  refine ⟨t, ?_⟩
  induction h with
  | nil => exact .nil
  | plain _ hb _ ih => exact .plain List.not_mem_nil hb ih
  | escaped _ ih => exact .escaped ih

theorem isWhole_nil : IsWhole [] :=
  ⟨[], .nil⟩

theorem IsWhole.cons (hb : c ≠ '\\') (h : IsWhole s) : IsWhole (c :: s) := by
  obtain ⟨t, h⟩ := h
  exact ⟨c :: t, .plain List.not_mem_nil hb h⟩

theorem IsWhole.append (hs : IsWhole s) (ht : IsWhole t) : IsWhole (s ++ t) := by
  obtain ⟨s', hs⟩ := hs
  obtain ⟨t', ht⟩ := ht
  exact ⟨s' ++ t', hs.append ht⟩

theorem isWhole_blanks (s : List Char) : IsWhole (s.takeWhile Text.isBlank) :=
  ⟨_, spells_blanks (by rintro c ⟨⟩) fun _ hc => List.mem_takeWhile_imp hc⟩

theorem IsWhole.firstOf_append (h : IsWhole v) :
    (∃ c, ∀ r, firstOf marks (v ++ r) = some c) ∨ ∀ r, firstOf marks (v ++ r) = firstOf marks r := by
  obtain ⟨t, h⟩ := h
  induction h with
  | nil => exact .inr fun r => rfl
  | @plain d s t _ hd _ ih =>
      by_cases hm : d ∈ marks
      · exact .inl ⟨d, fun r => firstOf_mark hm hd (s ++ r)⟩
      · simpa only [List.cons_append, firstOf_cons hm hd] using ih
  | escaped _ ih => simpa only [List.cons_append, firstOf_escape] using ih

theorem IsWhole.firstOf_congr (h : IsWhole v) (hc : c ∈ marks) (hb : c ≠ '\\') (r r' : List Char) :
    firstOf marks (v ++ c :: r) = firstOf marks (v ++ c :: r') := by
  rcases h.firstOf_append with ⟨d, hd⟩ | hd
  · rw [hd, hd]
  · rw [hd, hd, firstOf_mark hc hb, firstOf_mark hc hb]

theorem firstOf_append_ne (h : firstOf marks (u ++ r) ≠ some d) (hw : firstOf marks w ≠ some d)
    (hw' : firstOf marks w.tail ≠ some d) : firstOf marks (u ++ w) ≠ some d := by
  fun_induction firstOf marks u with
  | case1 => exact hw
  | case2 =>
      cases w with
      | nil => exact hw
      | cons c w => exact hw'
  | case3 c u ih =>
      simp only [List.cons_append, firstOf_escape] at h ⊢
      exact ih h
  | case4 c u hb₁ hb₂ hc =>
      have hb : c ≠ '\\' := ne_backslash hb₁ hb₂
      rw [List.cons_append, firstOf_mark hc hb] at h ⊢
      exact h
  | case5 c u hb₁ hb₂ hc ih =>
      have hb : c ≠ '\\' := ne_backslash hb₁ hb₂
      rw [List.cons_append, firstOf_cons hc hb] at h ⊢
      exact ih h

/-- What is read up to a stop spells the text got from it; a backslash at the end of everything is
made harmless by one more character. -/
theorem readText_split (hs : Separates stops) (h : readText stops s = (t, w)) :
    ∃ u, s = u ++ w ∧ (w ≠ [] → Spells stops u t) ∧ ∃ t', Spells stops (u ++ [filler]) t' := by
  have hfill : Spells stops [filler] [filler] := .plain hs.filler (by decide) .nil
  fun_induction readText stops s generalizing t w with
  | case1 =>
      cases h
      exact ⟨[], rfl, fun _ => .nil, [filler], hfill⟩
  | case2 =>
      cases h
      exact ⟨['\\'], rfl, fun h => (h rfl).elim, [filler], .escaped .nil⟩
  | case3 c s text r hr ih =>
      cases h
      obtain ⟨u, rfl, hu, t', ht'⟩ := ih hr
      exact ⟨'\\' :: c :: u, rfl, fun hw => .escaped (hu hw), c :: t', .escaped ht'⟩
  | case4 c s hb₁ hb₂ hc =>
      cases h
      exact ⟨[], rfl, fun _ => .nil, [filler], hfill⟩
  | case5 c s hb₁ hb₂ hc text r hr ih =>
      have hb : c ≠ '\\' := ne_backslash hb₁ hb₂
      cases h
      obtain ⟨u, rfl, hu, t', ht'⟩ := ih hr
      exact ⟨c :: u, rfl, fun hw => .plain hc hb (hu hw), c :: t', .plain hc hb ht'⟩

theorem mem_of_readText (h : readText stops s = (t, d :: r)) : d ∈ stops := by
  have := head?_readText_mem stops s
  rw [h] at this
  exact this d rfl

theorem readText_ne_nil (hfirst : firstOf marks s = some d) (hd : d ∈ stops)
    (h : readText stops s = (t, r)) : r ≠ [] := by
  rintro rfl
  rcases firstOf_readText marks stops s with hnone | ⟨c, -, -, hc, hmark⟩
  · rw [h] at hnone
    cases hnone.symm.trans hfirst
  · cases hmark.symm.trans hfirst
    exact hc hd

theorem readText_of_firstOf (hfirst : firstOf marks s = some d) (h : readText [d] s = (t, r)) :
    ∃ r', r = d :: r' := by
  obtain ⟨c, r', rfl⟩ := List.exists_cons_of_ne_nil (readText_ne_nil hfirst List.mem_cons_self h)
  cases List.mem_singleton.mp (mem_of_readText h)
  exact ⟨r', rfl⟩

theorem readText_local (hs : Separates stops) (h : readText stops s = (t, w)) (hw : w ≠ []) :
    ∃ u, s = u ++ w ∧ IsWhole u ∧ ∀ w', w'.head? = w.head? → readText stops (u ++ w') = (t, w') := by
  obtain ⟨u, rfl, hu, -⟩ := readText_split hs h
  refine ⟨u, rfl, (hu hw).isWhole, fun w' hhead => (hu hw).readText_eq hs.backslash ?_⟩
  intro c hc
  obtain ⟨r, rfl⟩ := List.head?_eq_some_iff.mp (hhead ▸ hc)
  exact mem_of_readText h

theorem readText_ended (hs : Separates stops) (h : readText stops s = (t, r)) :
    ∃ u, s = u ++ r ∧ ∀ d ∈ stops, ∃ t', ∀ r',
      readText stops (u ++ filler :: d :: r') = (t', d :: r') := by
  obtain ⟨u, rfl, -, t', ht'⟩ := readText_split hs h
  refine ⟨u, rfl, fun d hd => ⟨t', fun r' => ?_⟩⟩
  have := ht'.readText_eq (r := d :: r') hs.backslash (by rintro c ⟨⟩; exact hd)
  rwa [List.append_assoc, List.singleton_append] at this

theorem formatText_local (hs : Separates stops) (h : formatText stops s = (t, d :: r)) :
    ∃ v, s = v ++ d :: r ∧ IsWhole v ∧ ∀ r', formatText stops (v ++ d :: r') = (t, d :: r') := by
  by_cases hhead : s.head? = some ':'
  · obtain ⟨s, rfl⟩ := List.head?_eq_some_iff.mp hhead
    rw [formatText] at h
    obtain ⟨u, rfl, hu, hread⟩ := readText_local hs h (List.cons_ne_nil d r)
    exact ⟨':' :: u, rfl, hu.cons (by decide), fun r' => hread (d :: r') rfl⟩
  · rw [formatText_of_head hhead] at h
    cases h
    exact ⟨[], rfl, isWhole_nil, fun r' => formatText_of_head hhead⟩

theorem formatText_ended (hs : Separates stops) (h : formatText stops s = (t, r)) :
    s.head? ≠ some ':' ∧ s = r ∨
      ∃ v, s = ':' :: (v ++ r) ∧ ∀ d ∈ stops, ∃ t', ∀ r',
        formatText stops (':' :: (v ++ filler :: d :: r')) = (t', d :: r') := by
  by_cases hhead : s.head? = some ':'
  · obtain ⟨s, rfl⟩ := List.head?_eq_some_iff.mp hhead
    rw [formatText] at h
    obtain ⟨u, rfl, hread⟩ := readText_ended hs h
    exact .inr ⟨u, rfl, hread⟩
  · rw [formatText_of_head hhead] at h
    cases h
    exact .inl ⟨hhead, rfl⟩

end

def ReadsName (names formats s n f r : List Char) : Prop :=
  ∃ r₁, readText names s = (n, r₁) ∧ formatText formats r₁ = (f, r)

structure NameStops (names formats : List Char) : Prop where
  separates : Separates names
  colon : ':' ∈ names
  formats_subset : ∀ c ∈ formats, c ∈ names
  colon_not_mem : ':' ∉ formats

theorem nameStops_formatStops : NameStops nameStops formatStops :=
  ⟨by decide, by decide, by decide, by decide⟩

theorem templatedNameStops_templateStops : NameStops templatedNameStops templateStops :=
  ⟨by decide, by decide, by decide, by decide⟩

section

variable {names formats s n f r : List Char} {d : Char}

theorem NameStops.separates_formats (hs : NameStops names formats) : Separates formats :=
  fun c hc h => hs.separates c hc (hs.formats_subset c h)

theorem ReadsName.local (hs : NameStops names formats) (h : ReadsName names formats s n f (d :: r)) :
    ∃ v, s = v ++ d :: r ∧ IsWhole v ∧ ∀ r', ReadsName names formats (v ++ d :: r') n f (d :: r') := by
  obtain ⟨r₁, hn, hf⟩ := h
  obtain ⟨v, rfl, hv, hformat⟩ := formatText_local hs.separates_formats hf
  obtain ⟨u, rfl, hu, hname⟩ := readText_local hs.separates hn (by simp)
  refine ⟨u ++ v, by rw [List.append_assoc], hu.append hv, fun r' => ⟨v ++ d :: r', ?_, hformat r'⟩⟩
  rw [List.append_assoc]
  exact hname _ (by cases v <;> rfl)

theorem ReadsName.ended (hs : NameStops names formats) (h : ReadsName names formats s n f r) :
    ∃ v, s = v ++ r ∧ ∀ d ∈ formats, ∃ n' f', ∀ r',
      ReadsName names formats (v ++ filler :: d :: r') n' f' (d :: r') := by
  obtain ⟨r₁, hn, hf⟩ := h
  rcases formatText_ended hs.separates_formats hf with ⟨hhead, rfl⟩ | ⟨v, rfl, hv⟩
  · obtain ⟨u, rfl, hu⟩ := readText_ended hs.separates hn
    refine ⟨u, rfl, fun d hd => ?_⟩
    obtain ⟨n', hn'⟩ := hu d (hs.formats_subset d hd)
    refine ⟨n', [], fun r' => ⟨d :: r', hn' r', formatText_of_head ?_⟩⟩
    rintro ⟨⟩
    exact hs.colon_not_mem hd
  · obtain ⟨u, rfl, -, hu⟩ := readText_local hs.separates hn (List.cons_ne_nil _ _)
    refine ⟨u ++ ':' :: v, by simp, fun d hd => ?_⟩
    obtain ⟨f', hf'⟩ := hv d hd
    refine ⟨n, f', fun r' => ⟨_, ?_, hf' r'⟩⟩
    rw [List.append_assoc, List.cons_append]
    exact hu _ rfl

end

section

variable {s r : List Char}

theorem ReadsReference.local {ref : Reference} (h : ReadsReference s ref r) :
    ∃ v, s = v ++ r ∧ IsWhole v ∧ ∀ r', ReadsReference (v ++ r') ref r' := by
  cases h with
  | @call n a f r₁ r₂ _ hs hn ha hf =>
      obtain ⟨w, rfl, hw, hformat⟩ := formatText_local (by decide) hf
      obtain ⟨r₁, rfl⟩ := readText_of_firstOf hs hn
      obtain ⟨u, rfl, hu, hname⟩ := readText_local (by decide) hn (List.cons_ne_nil _ _)
      rw [List.tail_cons] at ha
      obtain ⟨v, rfl, hv, harguments⟩ := readText_local (by decide) ha (List.cons_ne_nil _ _)
      refine ⟨u ++ '(' :: (v ++ ')' :: (w ++ ['}'])), by simp, ?_, fun r' => ?_⟩
      · refine hu.append (IsWhole.cons (by decide) (hv.append (IsWhole.cons (by decide) ?_)))
        exact hw.append (isWhole_nil.cons (by decide))
      · simp only [List.append_assoc, List.cons_append, List.nil_append]
        refine .call ?_ (hname _ rfl) (harguments _ rfl) (hformat r')
        rwa [hu.firstOf_congr (by decide) (by decide) _ (v ++ ')' :: (w ++ '}' :: r))]
  | @plain n f r₁ _ hs hn hf =>
      obtain ⟨v, rfl, hv, hname⟩ := ReadsName.local nameStops_formatStops ⟨r₁, hn, hf⟩
      refine ⟨v ++ ['}'], by simp, hv.append (isWhole_nil.cons (by decide)), fun r' => ?_⟩
      obtain ⟨r₁', hn', hf'⟩ := hname r'
      rw [List.append_assoc, List.singleton_append]
      refine .plain ?_ hn' hf'
      rwa [hv.firstOf_congr (by decide) (by decide) r' r]

theorem ReadsHead.local {template : Option String} {subject : Reference}
    (h : ReadsHead s template subject r) :
    ∃ v, s = v ++ r ∧ IsWhole v ∧ ∀ r', ReadsHead (v ++ r') template subject r' := by
  cases h with
  | @templated t n f r₁ r₂ _ hs ht hn hf =>
      obtain ⟨w, rfl, hw, hname⟩ := ReadsName.local templatedNameStops_templateStops ⟨r₂, hn, hf⟩
      obtain ⟨u, rfl, hu, htemplate⟩ := readText_local (by decide) ht (List.cons_ne_nil _ _)
      refine ⟨u ++ '(' :: (w ++ [')', '{']), by simp, ?_, fun r' => ?_⟩
      · refine hu.append (IsWhole.cons (by decide) (hw.append ?_))
        exact (isWhole_nil.cons (by decide)).cons (by decide)
      · obtain ⟨r₂', hn', hf'⟩ := hname ('{' :: r')
        simp only [List.append_assoc, List.cons_append, List.nil_append]
        refine .templated ?_ (htemplate _ rfl) hn' hf'
        rwa [hu.firstOf_congr (by decide) (by decide) _ (w ++ ')' :: '{' :: r)]
  | @plain n f r₁ _ hs hn hf =>
      obtain ⟨v, rfl, hv, hname⟩ := ReadsName.local nameStops_formatStops ⟨r₁, hn, hf⟩
      refine ⟨v ++ ['{'], by simp, hv.append (isWhole_nil.cons (by decide)), fun r' => ?_⟩
      obtain ⟨r₁', hn', hf'⟩ := hname r'
      rw [List.append_assoc, List.singleton_append]
      refine .plain ?_ hn' hf'
      rwa [hv.firstOf_congr (by decide) (by decide) r' r]

theorem ReadsCondition.local {spelling : Option Expression} (h : ReadsCondition s spelling r) :
    ∃ v, s = v ++ r ∧ IsWhole v ∧ ∀ r',
      (firstOf conditionStops r ≠ Option.some ':' → firstOf conditionStops r' ≠ Option.some ':') →
        ReadsCondition (v ++ r') spelling r' := by
  cases h with
  | @some t r₁ hs ht =>
      obtain ⟨r, rfl⟩ := readText_of_firstOf hs ht
      obtain ⟨u, rfl, hu, hread⟩ := readText_local (by decide) ht (List.cons_ne_nil _ _)
      refine ⟨u ++ [':'], by simp, hu.append (isWhole_nil.cons (by decide)), fun r' _ => ?_⟩
      rw [List.append_assoc, List.singleton_append]
      refine .some ?_ (hread (':' :: r') rfl)
      rwa [hu.firstOf_congr (by decide) (by decide) r' r]
  | none hs => exact ⟨[], rfl, isWhole_nil, fun r' h => .none (h hs)⟩

end

def BeginsAs (s' s : List Char) : Prop :=
  s'.head? = s.head? ∨ s'.head? = some filler

section

variable {s s' q r r' u v w : List Char} {i : Nat} {found more : List Part}

theorem BeginsAs.append (h : BeginsAs s' s) (v : List Char) : BeginsAs (v ++ s') (v ++ s) := by
  cases v with
  | nil => exact h
  | cons c v => exact .inl rfl

theorem BeginsAs.head?_ne (h : BeginsAs s' s) {c : Char} (hc : c ≠ filler) (hs : s.head? ≠ some c) :
    s'.head? ≠ some c := by
  rcases h with h | h
  · rwa [h]
  · rw [h]
    exact fun he => hc (Option.some.inj he).symm

theorem BeginsAs.trimStart_eq (h : BeginsAs s' (Text.trimStart s)) :
    Text.trimStart (s.takeWhile Text.isBlank ++ s') = s' := by
  rw [Text.trimStart_blanks_append fun c hc => List.mem_takeWhile_imp hc]
  refine Text.trimStart_of_head? fun c hc => ?_
  rcases h with h | h
  · exact Text.head?_trimStart_not_blank s c (h ▸ hc)
  · rw [h] at hc
    cases hc
    rfl

theorem BeginsAs.blanks_append (h : BeginsAs s' (Text.trimStart s)) :
    BeginsAs (s.takeWhile Text.isBlank ++ s') s := by
  have hs := Text.blanks_append_trimStart s
  cases hb : s.takeWhile Text.isBlank with
  | nil =>
      rw [hb, List.nil_append] at hs
      rwa [hs] at h
  | cons c b =>
      rw [hb] at hs
      rw [BeginsAs, ← hs]
      exact .inl rfl

/-- A text before the body of a case: before any body that begins like the one at hand, and announces no
condition where that one does not, it makes a case. What the case adds to those after it is `make`. -/
structure Opens (i j : Nat) (make : List Part → List Case → Option NullCase → List Case × Option NullCase)
    (p s : List Char) : Prop where
  whole : IsWhole p
  reads : ∀ {s' r r' : List Char} {found : List Part} {cs : List Case} {later : Option NullCase},
    BeginsAs s' s → (firstOf conditionStops s ≠ some ':' → firstOf conditionStops s' ≠ some ':') →
    Reads s' (.parts found) r → Reads r (.moreCases j cs later) r' →
    Reads (p ++ s') (.cases i (make found cs later).1 (make found cs later).2) r'

theorem opens_nullCase (hs : s.head? ≠ some '}') (hq : Text.trimStart s = '?' :: q) :
    ∃ p, s = p ++ Text.trimStart q ∧
      Opens i i (fun found cs later => (cs, later <|> some ⟨i, orEmptyText found⟩)) p (Text.trimStart q) := by
  refine ⟨s.takeWhile Text.isBlank ++ '?' :: q.takeWhile Text.isBlank, ?_, ?_, ?_⟩
  · rw [List.append_assoc, List.cons_append, Text.blanks_append_trimStart, ← hq,
      Text.blanks_append_trimStart]
  · exact (isWhole_blanks s).append ((isWhole_blanks q).cons (by decide))
  · intro s' r r' found cs later hbegin _ hbody hmore
    have hmark : BeginsAs ('?' :: (q.takeWhile Text.isBlank ++ s')) (Text.trimStart s) := by
      rw [hq]
      exact .inl rfl
    rw [List.append_assoc, List.cons_append]
    refine .nullCase (hmark.blanks_append.head?_ne (by decide) hs) hmark.trimStart_eq ?_ hmore
    rwa [hbegin.trimStart_eq]

theorem opens_case {spelling : Option Expression} (hs : s.head? ≠ some '}')
    (hq : (Text.trimStart s).head? ≠ some '?') (h : ReadsCondition (Text.trimStart s) spelling r) :
    ∃ p, s = p ++ r ∧
      Opens i (i + 1) (fun found cs later => (⟨spelling, orEmptyText found⟩ :: cs, later)) p r := by
  obtain ⟨v, hv, hwhole, hread⟩ := h.local
  refine ⟨s.takeWhile Text.isBlank ++ v, ?_, (isWhole_blanks s).append hwhole, ?_⟩
  · rw [List.append_assoc, ← hv, Text.blanks_append_trimStart]
  · intro r' u u' found cs later hbegin hcolon hbody hmore
    have hstart : BeginsAs (v ++ r') (Text.trimStart s) := by
      rw [hv]
      exact hbegin.append v
    rw [List.append_assoc]
    refine .case (hstart.blanks_append.head?_ne (by decide) hs) ?_ ?_ hbody hmore <;>
      rw [hstart.trimStart_eq]
    · exact hstart.head?_ne (by decide) hq
    · exact hread r' hcolon

/-- A phrase takes a stretch of its text and is read the same before any text that may stand there. Parts
that reach the end of the text may end in a backslash; with one more character they can be read before
any text as well. -/
def Local (s r : List Char) : Phrase → Prop
  | .parts found => ∃ v, s = v ++ r ∧
      (r ≠ [] → IsWhole v ∧ ∀ r', Ends r' → Reads (v ++ r') (.parts found) r') ∧
      ∀ r', Ends r' → ∃ found', Reads (v ++ filler :: r') (.parts found') r'
  | .body found => ∃ v, s = v ++ r ∧
      (r ≠ [] → IsWhole v ∧ ∀ r', Ends r' → Reads (v ++ r') (.body found) r')
  | .cases i cs nullCase => ∃ v, s = v ++ r ∧ IsWhole v ∧
      ∀ r', Reads (v ++ r') (.cases i cs nullCase) r'
  | .moreCases i cs nullCase => ∃ v, s = v ++ r ∧ IsWhole v ∧ Closes v ∧
      ∀ r', Reads (v ++ r') (.moreCases i cs nullCase) r'

theorem Local.nil (r : List Char) : Local r r (.parts []) := by
  have hfill : Spells textStops [filler] [filler] := .plain (by decide) (by decide) .nil
  refine ⟨[], rfl, fun _ => ⟨isWhole_nil, fun r' hr' => hr'.reads⟩, fun r' hr' => ?_⟩
  have := hr'.reads.text_before hfill hr'.head?_mem
  exact ⟨_, this⟩

def Leads (c : Char) (p : Part) (s r : List Char) : Prop :=
  ∃ v, s = v ++ r ∧ IsWhole v ∧
    ∀ {x found r'}, Reads x (.parts found) r' → Reads (c :: (v ++ x)) (.parts (p :: found)) r'

theorem ReadsReference.leads {ref : Reference} (h : ReadsReference s ref r) :
    Leads '{' (.reference ref) s r := by
  obtain ⟨v, hs, hv, href⟩ := h.local
  exact ⟨v, hs, hv, fun hmore => .reference (href _) hmore⟩

theorem ReadsHead.leads {template : Option String} {subject : Reference} {cs : List Case}
    {nullCase : Option NullCase} (hhead : ReadsHead s template subject r)
    (hcases : Local r r' (.cases 0 cs nullCase)) : Leads '#' (.switch subject template cs nullCase) s r' := by
  obtain ⟨v, rfl, hv, hread⟩ := hhead.local
  obtain ⟨w, rfl, hw, hcases⟩ := hcases
  refine ⟨v ++ w, by rw [List.append_assoc], hv.append hw, fun hmore => ?_⟩
  rw [List.append_assoc]
  exact .switch (hread _) (hcases _) hmore

theorem leads_group {n : List Char} {body : Option Expression} (hname : readText nameStops s = (n, r))
    (hbody : Local r ('>' :: r') (.body body)) : Leads '<' (.group (String.ofList n) body) s r' := by
  obtain ⟨w, rfl, hbody⟩ := hbody
  obtain ⟨hw, hbody⟩ := hbody (List.cons_ne_nil '>' r')
  obtain ⟨u, rfl, hu, hread⟩ := readText_local (by decide) hname (by simp)
  refine ⟨u ++ (w ++ ['>']), by simp, hu.append (hw.append (isWhole_nil.cons (by decide))), ?_⟩
  intro x found r hmore
  simp only [List.append_assoc, List.singleton_append]
  exact .group (hread _ (by cases w <;> rfl)) (hbody ('>' :: x) (ends_cons (by decide) x)) hmore

theorem Leads.local {c : Char} {p : Part} (hb : c ≠ '\\') (h : Leads c p s r)
    (hmore : Local r r' (.parts more)) : Local (c :: s) r' (.parts (p :: more)) := by
  obtain ⟨v, rfl, hv, hp⟩ := h
  obtain ⟨w, rfl, hw, hended⟩ := hmore
  refine ⟨c :: (v ++ w), by simp, fun hr => ?_, fun r' hr' => ?_⟩
  · obtain ⟨hw, hread⟩ := hw hr
    refine ⟨(hv.append hw).cons hb, fun r' hr' => ?_⟩
    rw [List.cons_append, List.append_assoc]
    exact hp (hread r' hr')
  · obtain ⟨found', hread⟩ := hended r' hr'
    rw [List.cons_append, List.append_assoc]
    exact ⟨p :: found', hp hread⟩

theorem Local.text {c : Char} {t : List Char} (hc : c ∉ textStops)
    (ht : readText textStops (c :: s) = (t, r)) (hmore : Local r r' (.parts more)) :
    Local (c :: s) r' (.parts (.text (String.ofList t) :: more)) := by
  obtain ⟨u, he, hu, t', ht'⟩ := readText_split (by decide) ht
  have hr : ∀ d ∈ r.head?, d ∈ textStops := by
    have := head?_readText_mem textStops (c :: s)
    rwa [ht] at this
  obtain ⟨u, rfl, rfl⟩ : ∃ u', u = c :: u' ∧ s = u' ++ r := by
    cases u with
    | nil =>
        cases he
        exact (hc (hr c rfl)).elim
    | cons d u =>
        cases he
        exact ⟨u, rfl, rfl⟩
  have hread {x : List Char} (hr : r ≠ []) (hx : ∀ d ∈ x.head?, d ∈ textStops) :
      readText textStops (c :: u ++ x) = (t, x) := (hu hr).readText_eq (by decide) hx
  obtain ⟨w, rfl, hw, hended⟩ := hmore
  cases w with
  | nil =>
      refine ⟨c :: u, rfl, fun hr' => ⟨(hu hr').isWhole, fun x hx => ?_⟩, fun x hx => ?_⟩
      · exact .text hc (hread hr' hx.head?_mem) ((hw hr').2 x hx)
      · -- the text read last is the one that may end in a backslash
        have := hx.reads.text_before ht' hx.head?_mem
        rw [List.append_assoc, List.singleton_append] at this
        exact ⟨_, this⟩
  | cons d w =>
      have hd (x : List Char) : ∀ e ∈ (d :: w ++ x).head?, e ∈ textStops := hr
      have hne : d :: w ++ r' ≠ [] := List.cons_ne_nil _ _
      refine ⟨c :: u ++ d :: w, by simp, fun hr' => ?_, fun x hx => ?_⟩
      · obtain ⟨hw, hmore⟩ := hw hr'
        refine ⟨(hu hne).isWhole.append hw, fun x hx => ?_⟩
        rw [List.append_assoc]
        exact .text hc (hread hne (hd x)) (hmore x hx)
      · obtain ⟨found', hmore⟩ := hended x hx
        rw [List.append_assoc]
        exact ⟨_, .text hc (hread hne (hd (filler :: x))) hmore⟩

theorem Opens.local {j : Nat} {make : List Part → List Case → Option NullCase → List Case × Option NullCase}
    {p : List Char} {cs : List Case} {later : Option NullCase} (h : Opens i j make p s)
    (hbody : Local s r (.parts found)) (hmore : Local r r' (.moreCases j cs later)) :
    Local (p ++ s) r' (.cases i (make found cs later).1 (make found cs later).2) := by
  obtain ⟨w, rfl, hw, ⟨c, u, rfl, hc⟩, hmore⟩ := hmore
  obtain ⟨v, rfl, hbody, -⟩ := hbody
  obtain ⟨hv, hbody⟩ := hbody (List.cons_ne_nil c _)
  have hmark : c ∈ conditionStops ∧ c ≠ '\\' := by
    simp only [List.mem_cons, List.not_mem_nil, or_false] at hc
    rcases hc with rfl | rfl <;> decide
  refine ⟨p ++ (v ++ c :: u), by simp, h.whole.append (hv.append hw), fun x => ?_⟩
  rw [List.append_assoc, List.append_assoc, List.cons_append]
  refine h.reads ?_ ?_ (hbody (c :: (u ++ x)) ?_) (hmore x)
  · have : BeginsAs (c :: (u ++ x)) (c :: (u ++ r')) := .inl rfl
    exact this.append v
  · rw [List.cons_append, hv.firstOf_congr hmark.1 hmark.2 (u ++ x) (u ++ r')]
    exact id
  · exact Closes.ends ⟨c, u ++ x, rfl, hc⟩

/-- What a stretch of a pattern is read as does not depend on what comes after it. -/
theorem Reads.local {phrase : Phrase} (h : Reads s phrase r) : Local s r phrase := by
  induction h with
  | nil => exact .nil []
  | @stop c s _ => exact .nil (c :: s)
  | reference href _ ih => exact href.leads.local (by decide) ih
  | switch hhead _ _ ihcases ihmore => exact (hhead.leads ihcases).local (by decide) ihmore
  | group hname _ _ ihbody ihmore => exact (leads_group hname ihbody).local (by decide) ihmore
  | text hc ht _ ih => exact .text hc ht ih
  | @someBody s r found _ ih =>
      obtain ⟨v, rfl, hv, -⟩ := ih
      refine ⟨':' :: v, rfl, fun hr => ⟨(hv hr).1.cons (by decide), fun r' hr' => ?_⟩⟩
      exact .someBody ((hv hr).2 r' hr')
  | noBody _ =>
      refine ⟨[], rfl, fun _ => ⟨isWhole_nil, fun r' hr' => .noBody ?_⟩⟩
      intro hc
      exact absurd (hr' _ hc) (by decide)
  | noCases => exact ⟨['}'], rfl, isWhole_nil.cons (by decide), fun r' => .noCases⟩
  | nullCase hs hq _ _ ihbody ihmore =>
      obtain ⟨p, hp, hopens⟩ := opens_nullCase hs hq
      rw [hp]
      exact hopens.local ihbody ihmore
  | case hs hq hcond _ _ ihbody ihmore =>
      obtain ⟨p, hp, hopens⟩ := opens_case hs hq hcond
      rw [hp]
      exact hopens.local ihbody ihmore
  | close => exact ⟨['}'], rfl, isWhole_nil.cons (by decide), ⟨_, _, rfl, by decide⟩, fun r' => .close⟩
  | bar _ ih =>
      obtain ⟨v, rfl, hv, hcases⟩ := ih
      exact ⟨'|' :: v, rfl, hv.cons (by decide), ⟨_, _, rfl, by decide⟩, fun r' => .bar (hcases r')⟩

end

end Phrasebook.Reader
