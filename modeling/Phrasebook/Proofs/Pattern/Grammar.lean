import Mathlib.Tactic.Tauto
import Phrasebook.Pattern.Reader

namespace Phrasebook.Reader

def formatText (stops : List Char) : List Char → List Char × List Char
  | ':' :: s => readText stops s
  | s => ([], s)

inductive ReadsReference : List Char → Reference → List Char → Prop
  | call {s n a f r₁ r₂ r : List Char} (hs : firstOf ['(', ':', '}'] s = some '(')
      (hn : readText ['('] s = (n, r₁)) (ha : readText [')'] r₁.tail = (a, ')' :: r₂))
      (hf : formatText formatStops r₂ = (f, '}' :: r)) :
      ReadsReference s ⟨String.ofList n, String.ofList f, some (String.ofList a)⟩ r
  | plain {s n f r₁ r : List Char} (hs : firstOf ['(', ':', '}'] s ≠ some '(')
      (hn : readText nameStops s = (n, r₁)) (hf : formatText formatStops r₁ = (f, '}' :: r)) :
      ReadsReference s ⟨String.ofList n, String.ofList f, none⟩ r

inductive ReadsHead : List Char → Option String → Reference → List Char → Prop
  | templated {s t n f r₁ r₂ r : List Char} (hs : firstOf ['(', ':', '{'] s = some '(')
      (ht : readText templateStops s = (t, '(' :: r₁)) (hn : readText templatedNameStops r₁ = (n, r₂))
      (hf : formatText templateStops r₂ = (f, ')' :: '{' :: r)) :
      ReadsHead s (some (String.ofList t)) ⟨String.ofList n, String.ofList f, none⟩ r
  | plain {s n f r₁ r : List Char} (hs : firstOf ['(', ':', '{'] s ≠ some '(')
      (hn : readText nameStops s = (n, r₁)) (hf : formatText formatStops r₁ = (f, '{' :: r)) :
      ReadsHead s none ⟨String.ofList n, String.ofList f, none⟩ r

inductive ReadsCondition : List Char → Option Expression → List Char → Prop
  | some {s t r : List Char} (hs : firstOf ['{', '}', '|', ':'] s = some ':')
      (ht : readText [':'] s = (t, r)) :
      ReadsCondition s (some (Expression.ofText (String.ofList t))) r.tail
  | none {s : List Char} (hs : firstOf ['{', '}', '|', ':'] s ≠ some ':') : ReadsCondition s none s

inductive Phrase where
  | parts (found : List Part)
  | body (found : Option Expression)
  | cases (index : Nat) (found : List Case) (nullCase : Option NullCase)
  | moreCases (index : Nat) (found : List Case) (nullCase : Option NullCase)

/-- The grammar of patterns: what a text is read as, and the rest that is left. -/
inductive Reads : List Char → Phrase → List Char → Prop
  | nil : Reads [] (.parts []) []
  | reference {s r r' : List Char} {ref : Reference} {more : List Part}
      (href : ReadsReference s ref r) (hmore : Reads r (.parts more) r') :
      Reads ('{' :: s) (.parts (.reference ref :: more)) r'
  | switch {s r r₁ r₂ : List Char} {template : Option String} {subject : Reference}
      {cs : List Case} {nullCase : Option NullCase} {more : List Part}
      (hhead : ReadsHead s template subject r) (hcases : Reads r (.cases 0 cs nullCase) r₁)
      (hmore : Reads r₁ (.parts more) r₂) :
      Reads ('#' :: s) (.parts (.switch subject template cs nullCase :: more)) r₂
  | group {s n r r₁ r₂ : List Char} {body : Option Expression} {more : List Part}
      (hname : readText nameStops s = (n, r)) (hbody : Reads r (.body body) ('>' :: r₁))
      (hmore : Reads r₁ (.parts more) r₂) :
      Reads ('<' :: s) (.parts (.group (String.ofList n) body :: more)) r₂
  | stop {c : Char} {s : List Char} (hc : c ∈ ['}', '|', '>']) :
      Reads (c :: s) (.parts []) (c :: s)
  | text {c : Char} {s t r r' : List Char} {more : List Part} (hc : c ∉ textStops)
      (ht : readText textStops (c :: s) = (t, r)) (hmore : Reads r (.parts more) r') :
      Reads (c :: s) (.parts (.text (String.ofList t) :: more)) r'
  | someBody {s r : List Char} {found : List Part} (hparts : Reads s (.parts found) r) :
      Reads (':' :: s) (.body (some (orEmptyText found))) r
  | noBody {s : List Char} (hs : s.head? ≠ some ':') : Reads s (.body none) s
  | noCases {s : List Char} {i : Nat} : Reads ('}' :: s) (.cases i [] none) s
  | nullCase {s q r r' : List Char} {i : Nat} {found : List Part} {cs : List Case}
      {later : Option NullCase} (hs : s.head? ≠ some '}') (hq : Text.trimStart s = '?' :: q)
      (hbody : Reads (Text.trimStart q) (.parts found) r) (hmore : Reads r (.moreCases i cs later) r') :
      Reads s (.cases i cs (later <|> some ⟨i, orEmptyText found⟩)) r'
  | case {s r r₁ r₂ : List Char} {i : Nat} {spelling : Option Expression} {found : List Part}
      {cs : List Case} {later : Option NullCase} (hs : s.head? ≠ some '}')
      (hq : (Text.trimStart s).head? ≠ some '?') (hcond : ReadsCondition (Text.trimStart s) spelling r)
      (hbody : Reads r (.parts found) r₁) (hmore : Reads r₁ (.moreCases (i + 1) cs later) r₂) :
      Reads s (.cases i (⟨spelling, orEmptyText found⟩ :: cs) later) r₂
  | close {s : List Char} {i : Nat} : Reads ('}' :: s) (.moreCases i [] none) s
  | bar {s r : List Char} {i : Nat} {cs : List Case} {nullCase : Option NullCase}
      (hcases : Reads s (.cases i cs nullCase) r) : Reads ('|' :: s) (.moreCases i cs nullCase) r

def Returns {α : Type} {p : List Char → Prop} (x : Except Stop (α × { r // p r })) (a : α)
    (r : List Char) : Prop :=
  ∃ h, x = .ok (a, ⟨r, h⟩)

section

variable {α β : Type} {p q : List Char → Prop} {a : α} {r : List Char}

theorem returns_ok {b : α} {u : { r // p r }} : Returns (.ok (b, u)) a r ↔ b = a ∧ u.1 = r := by
  constructor
  · rintro ⟨h, he⟩
    cases he
    exact ⟨rfl, rfl⟩
  · rintro ⟨rfl, rfl⟩
    exact ⟨u.2, rfl⟩

theorem returns_pure {b : α} {u : { r // p r }} : Returns (pure (b, u)) a r ↔ b = a ∧ u.1 = r :=
  returns_ok

theorem not_returns_error {e : Stop} : ¬ Returns (p := p) (.error e) a r := by
  rintro ⟨h, he⟩
  cases he

theorem Returns.unique {x : Except Stop (α × { r // p r })} {b : α} {r' : List Char}
    (h : Returns x a r) (h' : Returns x b r') : a = b ∧ r = r' := by
  obtain ⟨_, hr⟩ := h
  obtain ⟨_, hr'⟩ := h'
  cases hr.symm.trans hr'
  exact ⟨rfl, rfl⟩

theorem returns_bind {x : Except Stop (β × { r // q r })}
    {f : β × { r // q r } → Except Stop (α × { r // p r })} :
    Returns (x >>= f) a r ↔ ∃ b u h, Returns x b u ∧ Returns (f (b, ⟨u, h⟩)) a r := by
  constructor
  · intro h
    cases x with
    | error e => exact (not_returns_error h).elim
    | ok x => exact ⟨x.1, x.2.1, x.2.2, ⟨x.2.2, rfl⟩, h⟩
  · rintro ⟨b, u, h, ⟨_, rfl⟩, hf⟩
    exact hf

theorem returns_expect {c : Char} {construct : Construct} {s : List Char}
    {f : Tail s → Except Stop (α × { r // p r })} :
    Returns (expect c construct s >>= f) a r ↔ ∃ u h, s = c :: u ∧ Returns (f ⟨u, h⟩) a r := by
  cases s with
  | nil =>
      constructor
      · intro h
        exact (not_returns_error h).elim
      · rintro ⟨u, h, he, -⟩
        cases he
  | cons d s =>
      by_cases hd : d = c
      · subst hd
        simp only [expect, if_pos]
        constructor
        · intro h
          exact ⟨s, Nat.lt_succ_self _, rfl, h⟩
        · rintro ⟨u, h, he, hf⟩
          cases he
          exact hf
      · simp only [expect, if_neg hd]
        constructor
        · intro h
          exact (not_returns_error h).elim
        · rintro ⟨u, h, he, -⟩
          cases he
          exact (hd rfl).elim

end

theorem formatText_of_head {stops s : List Char} (hs : s.head? ≠ some ':') :
    formatText stops s = ([], s) := by
  unfold formatText
  split
  · exact (hs rfl).elim
  · rfl

theorem formatAfterColon_fst (stops s : List Char) :
    (formatAfterColon stops s).1 = String.ofList (formatText stops s).1 := by
  unfold formatAfterColon
  split
  · rfl
  next hs => rw [formatText_of_head (by rintro h; cases s <;> simp_all)]

theorem formatAfterColon_snd (stops s : List Char) :
    (formatAfterColon stops s).2.1 = (formatText stops s).2 := by
  unfold formatAfterColon
  split
  · rfl
  next hs => rw [formatText_of_head (by rintro h; cases s <;> simp_all)]

theorem text_eq {stops s t r : List Char} (h : readText stops s = (t, r)) :
    ∃ hr, text stops s = (String.ofList t, ⟨r, hr⟩) := by
  refine ⟨by simpa only [h] using readText_length_le stops s, ?_⟩
  simp only [text, h]

theorem lt_of_eq_cons {c : Char} {s u : List Char} (h : s = c :: u) : u.length < s.length :=
  h ▸ Nat.lt_succ_self _

theorem reference_call_iff {s n r₁ r : List Char} {ref : Reference}
    (hs : firstOf ['(', ':', '}'] s = some '(') (hn : readText ['('] s = (n, r₁)) :
    ReadsReference s ref r ↔ ∃ r₂, (readText [')'] r₁.tail).2 = ')' :: r₂ ∧
      (formatText formatStops r₂).2 = '}' :: r ∧
      ⟨String.ofList n, String.ofList (formatText formatStops r₂).1,
        some (String.ofList (readText [')'] r₁.tail).1)⟩ = ref := by
  constructor
  · intro h
    cases h with
    | call _ hn' ha hf =>
        cases hn.symm.trans hn'
        exact ⟨_, by rw [ha], by rw [hf], by rw [hf, ha]⟩
    | plain hs' => exact (hs' hs).elim
  · rintro ⟨r₂, ha, hf, rfl⟩
    exact .call hs hn (Prod.ext rfl ha) (Prod.ext rfl hf)

theorem returns_reference_iff {s r : List Char} {ref : Reference} :
    Returns (reference s) ref r ↔ ReadsReference s ref r := by
  unfold reference
  split
  next hs =>
    rcases hn : readText ['('] s with ⟨n, r₁⟩
    obtain ⟨h₁, ht⟩ := text_eq hn
    rw [ht, reference_call_iff hs hn]
    cases r₁ <;>
    · simp only [returns_expect, returns_pure, text, List.tail_cons, formatAfterColon_fst,
        formatAfterColon_snd]
      constructor
      · rintro ⟨r₂, -, ha, u, -, hf, rfl, rfl⟩
        exact ⟨r₂, ha, hf, rfl⟩
      · rintro ⟨r₂, ha, hf, rfl⟩
        exact ⟨r₂, lt_of_eq_cons ha, ha, r, lt_of_eq_cons hf, hf, rfl, rfl⟩
  next hs =>
    simp only [returns_expect, returns_pure, text, formatAfterColon_fst, formatAfterColon_snd]
    constructor
    · rintro ⟨u, -, hf, rfl, rfl⟩
      exact .plain hs rfl (Prod.ext rfl hf)
    · intro h
      cases h with
      | call hs' => exact (hs hs').elim
      | plain _ hn hf =>
          refine ⟨r, ?_, ?_, ?_, rfl⟩ <;> simp [hn, hf]

theorem returns_switchHead_iff {s r : List Char} {template : Option String} {subject : Reference} :
    Returns (switchHead s) (template, subject) r ↔ ReadsHead s template subject r := by
  unfold switchHead
  split
  next hs =>
    simp only [returns_expect, returns_pure, text, formatAfterColon_fst, formatAfterColon_snd,
      Prod.mk.injEq]
    constructor
    · rintro ⟨r₁, -, ht, u, -, hf, v, -, rfl, ⟨rfl, rfl⟩, rfl⟩
      exact .templated hs (Prod.ext rfl ht) rfl (Prod.ext rfl hf)
    · intro h
      cases h with
      | templated _ ht hn hf =>
          refine ⟨_, ?_, by rw [ht], _, ?_, ?_, _, ?_, rfl, ⟨?_, ?_⟩, rfl⟩ <;> simp [ht, hn, hf]
      | plain hs' => exact (hs' hs).elim
  next hs =>
    simp only [returns_expect, returns_pure, text, formatAfterColon_fst, formatAfterColon_snd,
      Prod.mk.injEq]
    constructor
    · rintro ⟨u, -, hf, ⟨rfl, rfl⟩, rfl⟩
      exact .plain hs rfl (Prod.ext rfl hf)
    · intro h
      cases h with
      | templated hs' => exact (hs hs').elim
      | plain _ hn hf =>
          refine ⟨r, ?_, ?_, ⟨rfl, ?_⟩, rfl⟩ <;> simp [hn, hf]

theorem condition_iff {s r : List Char} {spelling : Option Expression} :
    (∃ h, condition s = (spelling, ⟨r, h⟩)) ↔ ReadsCondition s spelling r := by
  unfold condition
  split
  next hs =>
    rcases ht : readText [':'] s with ⟨t, u⟩
    obtain ⟨h₁, hx⟩ := text_eq ht
    rw [hx]
    constructor
    · rintro ⟨h, he⟩
      have hr : u.tail = r ∧ some (Expression.ofText (String.ofList t)) = spelling := by
        cases u <;> cases he <;> exact ⟨rfl, rfl⟩
      obtain ⟨rfl, rfl⟩ := hr
      exact .some hs ht
    · intro h
      cases h with
      | some _ ht' =>
          cases ht.symm.trans ht'
          cases u with
          | nil => exact ⟨h₁, rfl⟩
          | cons c u => exact ⟨Nat.le_of_lt h₁, rfl⟩
      | none hs' => exact (hs' hs).elim
  next hs =>
    constructor
    · rintro ⟨h, he⟩
      cases he
      exact .none hs
    · intro h
      cases h with
      | some hs' => exact (hs hs').elim
      | none => exact ⟨Nat.le_refl _, rfl⟩

theorem returns_parts_text_iff {c : Char} {s r : List Char} {found : List Part} (hc : c ∉ textStops) :
    Returns (parts (c :: s)) found r ↔
      ∃ more, Returns (parts (readText textStops (c :: s)).2) more r ∧
        .text (String.ofList (readText textStops (c :: s)).1) :: more = found := by
  rw [parts]
  · rw [dif_neg hc]
    simp only [someText, returns_bind, returns_pure]
    constructor
    · rintro ⟨more, u, -, h, rfl, rfl⟩
      exact ⟨more, h, rfl⟩
    · rintro ⟨more, h, rfl⟩
      obtain ⟨hr, -⟩ := id h
      exact ⟨more, r, hr, h, rfl, rfl⟩
  all_goals
    rintro rfl
    simp [textStops] at hc

theorem returns_parts_stop_iff {c : Char} {s r : List Char} {found : List Part}
    (hc : c ∈ ['}', '|', '>']) :
    Returns (parts (c :: s)) found r ↔ found = [] ∧ r = c :: s := by
  have hstop : c ∈ textStops := by
    simp only [textStops, List.mem_cons] at hc ⊢
    tauto
  rw [parts]
  · rw [dif_pos hstop, returns_pure]
    exact and_congr eq_comm eq_comm
  all_goals
    rintro rfl
    simp at hc

theorem returns_cases_nullCase_iff {s q r : List Char} {i : Nat} {found : List Case × Option NullCase}
    (hs : s.head? ≠ some '}') (hq : Text.trimStart s = '?' :: q) :
    Returns (cases i s) found r ↔ ∃ body u more, Returns (parts (Text.trimStart q)) body u ∧
      Returns (moreCases i u) more r ∧ (more.1, more.2 <|> some ⟨i, orEmptyText body⟩) = found := by
  rw [cases]
  · split
    next q' hq' =>
      cases hq.symm.trans hq'
      simp only [returns_bind, returns_pure]
      constructor
      · rintro ⟨body, u, -, hbody, more, v, -, hmore, he, rfl⟩
        exact ⟨body, u, more, hbody, hmore, he⟩
      · rintro ⟨body, u, more, hbody, hmore, he⟩
        exact ⟨body, u, hbody.1, hbody, more, r, hmore.1, hmore, he, rfl⟩
    next hq' => exact (hq' q hq).elim
  · rintro u rfl
    exact hs rfl

theorem returns_cases_case_iff {s r : List Char} {i : Nat} {found : List Case × Option NullCase}
    (hs : s.head? ≠ some '}') (hq : (Text.trimStart s).head? ≠ some '?') :
    Returns (cases i s) found r ↔ ∃ spelling u body v more,
      ReadsCondition (Text.trimStart s) spelling u ∧ Returns (parts u) body v ∧
      Returns (moreCases (i + 1) v) more r ∧ (⟨spelling, orEmptyText body⟩ :: more.1, more.2) = found := by
  rw [cases]
  · split
    next q hq' => exact (hq (by rw [Text.trimStart, hq']; rfl)).elim
    next hq' =>
      rcases hcond : condition (s.dropWhile Text.isBlank) with ⟨spelling, u, hu⟩
      simp only [returns_bind, returns_pure]
      constructor
      · rintro ⟨body, v, -, hbody, more, w, -, hmore, he, rfl⟩
        exact ⟨spelling, u, body, v, more, condition_iff.mp ⟨hu, hcond⟩, hbody, hmore, he⟩
      · rintro ⟨spelling', u', body, v, more, hcond', hbody, hmore, he⟩
        obtain ⟨hu', hcond'⟩ := condition_iff.mpr hcond'
        cases hcond.symm.trans hcond'
        exact ⟨body, v, hbody.1, hbody, more, r, hmore.1, hmore, he, rfl⟩
  · rintro u rfl
    exact hs rfl

theorem reads_of_returns :
    (∀ s found r, Returns (parts s) found r → Reads s (.parts found) r) ∧
    (∀ s body r, Returns (groupBody s) body r → Reads s (.body body) r) ∧
    (∀ i s found r, Returns (cases i s) found r → Reads s (.cases i found.1 found.2) r) ∧
    ∀ i s found r, Returns (moreCases i s) found r → Reads s (.moreCases i found.1 found.2) r := by
  refine parts.mutual_induct
    (fun s => ∀ found r, Returns (parts s) found r → Reads s (.parts found) r)
    (fun s => ∀ body r, Returns (groupBody s) body r → Reads s (.body body) r)
    (fun i s => ∀ found r, Returns (cases i s) found r → Reads s (.cases i found.1 found.2) r)
    (fun i s => ∀ found r, Returns (moreCases i s) found r → Reads s (.moreCases i found.1 found.2) r)
    ?_ ?_ ?_ ?_ ?_ ?_ ?_ ?_ ?_ ?_ ?_ ?_ ?_ ?_ ?_
  · intro found r h
    rw [parts, returns_ok] at h
    obtain ⟨rfl, rfl⟩ := h
    exact .nil
  · intro s ih found r h
    simp only [parts, returns_bind, returns_pure] at h
    obtain ⟨ref, u, hu, href, more, v, -, hmore, rfl, rfl⟩ := h
    exact .reference (returns_reference_iff.mp href) (ih u hu more v hmore)
  · intro s ihcases ihparts found r h
    simp only [parts, returns_bind, returns_pure] at h
    obtain ⟨⟨template, subject⟩, u, hu, hhead, ⟨cs, nullCase⟩, v, hv, hcases, more, w, -, hmore,
      rfl, rfl⟩ := h
    exact .switch (returns_switchHead_iff.mp hhead) (ihcases u hu _ v hcases)
      (ihparts u hu v hv more w hmore)
  · intro s name u hu hname ihbody ihparts found r h
    simp only [parts, hname, returns_bind, returns_expect, returns_pure] at h
    obtain ⟨body, v, hv, hbody, w, hw, rfl, more, x, -, hmore, rfl, rfl⟩ := h
    cases hname
    exact .group rfl (ihbody body _ hbody) (ihparts _ hv w hw more x hmore)
  · intro c s h₁ h₂ h₃ hc found r h
    have hc : c ∈ ['}', '|', '>'] := by
      simp only [textStops, List.mem_cons, List.not_mem_nil, or_false] at hc ⊢
      tauto
    obtain ⟨rfl, rfl⟩ := (returns_parts_stop_iff hc).mp h
    exact .stop hc
  · intro c s _ _ _ hc content u hu htext _ ih found r h
    obtain ⟨more, hmore, rfl⟩ := (returns_parts_text_iff hc).mp h
    cases htext
    exact .text hc rfl (ih more r hmore)
  · intro s ih body r h
    simp only [groupBody, returns_bind, returns_pure] at h
    obtain ⟨found, u, -, hparts, rfl, rfl⟩ := h
    exact .someBody (ih found u hparts)
  · intro s hs body r h
    rw [groupBody, returns_ok] at h
    · obtain ⟨rfl, rfl⟩ := h
      exact .noBody (by rintro h; cases s <;> simp_all)
    · exact hs
  · intro i s found r h
    rw [cases, returns_ok] at h
    obtain ⟨rfl, rfl⟩ := h
    exact .noCases
  · intro i s hs _ q hq _ _ ihparts ihmore found r h
    have hs : s.head? ≠ some '}' := by rintro h; cases s <;> simp_all
    obtain ⟨body, u, more, hbody, hmore, rfl⟩ := (returns_cases_nullCase_iff hs hq).mp h
    exact .nullCase hs hq (ihparts body u hbody) (ihmore u hbody.1 more r hmore)
  · intro i s hs _ spelling u hq _ hu hcond ihparts ihmore found r h
    have hs : s.head? ≠ some '}' := by rintro h; cases s <;> simp_all
    have hq : (Text.trimStart s).head? ≠ some '?' := by
      intro h
      obtain ⟨q, h⟩ := List.head?_eq_some_iff.mp h
      exact hq q h
    obtain ⟨spelling', u', body, v, more, hcond', hbody, hmore, rfl⟩ :=
      (returns_cases_case_iff hs hq).mp h
    obtain ⟨hu', hcond''⟩ := condition_iff.mpr hcond'
    cases hcond.symm.trans hcond''
    exact .case hs hq hcond' (ihparts body v hbody) (ihmore v hbody.1 more r hmore)
  · intro i s found r h
    rw [moreCases, returns_ok] at h
    obtain ⟨rfl, rfl⟩ := h
    exact .close
  · intro i s ih found r h
    simp only [moreCases, returns_bind, returns_pure] at h
    obtain ⟨_, u, -, hcases, rfl, rfl⟩ := h
    exact .bar (ih _ u hcases)
  · intro i found r h
    rw [moreCases] at h
    exact (not_returns_error h).elim
  · intro i c s h₁ h₂ found r h
    rw [moreCases] at h
    · exact (not_returns_error h).elim
    · exact h₁
    · exact h₂

def ReturnsPhrase (s : List Char) (phrase : Phrase) (r : List Char) : Prop :=
  match phrase with
  | .parts found => Returns (parts s) found r
  | .body found => Returns (groupBody s) found r
  | .cases i found nullCase => Returns (cases i s) (found, nullCase) r
  | .moreCases i found nullCase => Returns (moreCases i s) (found, nullCase) r

theorem Reads.returned {s r : List Char} {phrase : Phrase} (h : Reads s phrase r) :
    ReturnsPhrase s phrase r := by
  induction h with
  | nil =>
      rw [ReturnsPhrase, parts, returns_ok]
      exact ⟨rfl, rfl⟩
  | reference href _ ih =>
      have href := returns_reference_iff.mpr href
      simp only [ReturnsPhrase, parts, returns_bind, returns_pure]
      exact ⟨_, _, href.1, href, _, _, ih.1, ih, rfl, rfl⟩
  | switch hhead _ _ ihcases ihmore =>
      have hhead := returns_switchHead_iff.mpr hhead
      simp only [ReturnsPhrase, parts, returns_bind, returns_pure]
      exact ⟨_, _, hhead.1, hhead, _, _, ihcases.1, ihcases, _, _, ihmore.1, ihmore, rfl, rfl⟩
  | group hname _ _ ihbody ihmore =>
      obtain ⟨hr, hname⟩ := text_eq hname
      rw [ReturnsPhrase, parts, hname]
      simp only [returns_bind, returns_expect, returns_pure]
      exact ⟨_, _, ihbody.1, ihbody, _, Nat.lt_succ_self _, rfl, _, _, ihmore.1, ihmore, rfl, rfl⟩
  | stop hc => exact (returns_parts_stop_iff hc).mpr ⟨rfl, rfl⟩
  | @text c s t r r' more hc ht _ ih =>
      refine (returns_parts_text_iff hc).mpr ⟨more, ?_, ?_⟩
      · rw [ht]
        exact ih
      · rw [ht]
  | someBody _ ih =>
      simp only [ReturnsPhrase, groupBody, returns_bind, returns_pure]
      exact ⟨_, _, ih.1, ih, rfl, rfl⟩
  | noBody hs =>
      rw [ReturnsPhrase, groupBody, returns_ok]
      · exact ⟨rfl, rfl⟩
      · rintro u rfl
        exact hs rfl
  | noCases =>
      rw [ReturnsPhrase, cases, returns_ok]
      exact ⟨rfl, rfl⟩
  | nullCase hs hq _ _ ihbody ihmore =>
      exact (returns_cases_nullCase_iff hs hq).mpr ⟨_, _, _, ihbody, ihmore, rfl⟩
  | case hs hq hcond _ _ ihbody ihmore =>
      exact (returns_cases_case_iff hs hq).mpr ⟨_, _, _, _, _, hcond, ihbody, ihmore, rfl⟩
  | close =>
      rw [ReturnsPhrase, moreCases, returns_ok]
      exact ⟨rfl, rfl⟩
  | bar _ ih =>
      simp only [ReturnsPhrase, moreCases, returns_bind, returns_pure]
      exact ⟨_, _, ih.1, ih, rfl, rfl⟩

section

variable {s r r' : List Char}

theorem ReadsReference.unique {ref ref' : Reference} (h : ReadsReference s ref r)
    (h' : ReadsReference s ref' r') : ref = ref' ∧ r = r' :=
  (returns_reference_iff.mpr h).unique (returns_reference_iff.mpr h')

theorem ReadsHead.unique {template template' : Option String} {subject subject' : Reference}
    (h : ReadsHead s template subject r) (h' : ReadsHead s template' subject' r') :
    template = template' ∧ subject = subject' ∧ r = r' := by
  obtain ⟨hhead, hr⟩ := (returns_switchHead_iff.mpr h).unique (returns_switchHead_iff.mpr h')
  cases hhead
  exact ⟨rfl, rfl, hr⟩

theorem ReadsCondition.unique {spelling spelling' : Option Expression} (h : ReadsCondition s spelling r)
    (h' : ReadsCondition s spelling' r') : spelling = spelling' ∧ r = r' := by
  obtain ⟨_, hr⟩ := condition_iff.mpr h
  obtain ⟨_, hr'⟩ := condition_iff.mpr h'
  cases hr.symm.trans hr'
  exact ⟨rfl, rfl⟩

/-- The grammar leaves no choice: where a list of parts ends follows from the text. -/
theorem Reads.unique {found found' : List Part} (h : Reads s (.parts found) r)
    (h' : Reads s (.parts found') r') : found = found' ∧ r = r' := by
  have hparts : Returns (parts s) found r := h.returned
  exact hparts.unique h'.returned

end

theorem expression_eq_ok_iff {s : List Char} {e : Expression} :
    expression s = .ok e ↔ ∃ found, Reads s (.parts found) [] ∧ e = orEmptyText found := by
  unfold expression
  constructor
  · intro h
    cases hp : parts s with
    | error stop =>
        rw [hp] at h
        cases h
    | ok x =>
        obtain ⟨found, r, hr⟩ := x
        rw [hp] at h
        cases r with
        | nil =>
            cases h
            exact ⟨found, reads_of_returns.1 s found [] ⟨hr, hp⟩, rfl⟩
        | cons c r => cases h
  · rintro ⟨found, h, rfl⟩
    obtain ⟨hr, hp⟩ : Returns (parts s) found [] := h.returned
    rw [hp]
    rfl

end Phrasebook.Reader

namespace Phrasebook

theorem Expression.read_eq_ok_iff {pattern : String} {e : Expression} :
    Expression.read pattern = .ok e ↔
      ∃ found, Reader.Reads pattern.toList (.parts found) [] ∧ e = Reader.orEmptyText found := by
  rw [← Reader.expression_eq_ok_iff, Expression.read]
  cases Reader.expression pattern.toList <;> simp [Except.mapError]

end Phrasebook
