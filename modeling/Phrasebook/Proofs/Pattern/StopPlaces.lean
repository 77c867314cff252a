import Phrasebook.Proofs.Pattern.ViablePrefix

namespace Phrasebook

namespace Reader

def marks : List Char := ['{', '}', '|', '#', '<', '>', ':', '(', ')']

/-- A text is cut before a mark, right behind one, or at its end. -/
def Cut (s rest : List Char) : Prop :=
  ∃ u, s = u ++ rest ∧ ((∃ c ∈ u.getLast?, c ∈ marks) ∨ ∀ c ∈ rest.head?, c ∈ marks)

section

variable {stops s t rest : List Char}

theorem Cut.after (v : List Char) (h : Cut s rest) : Cut (v ++ s) rest := by
  obtain ⟨u, rfl, hu⟩ := h
  refine ⟨v ++ u, by rw [List.append_assoc], hu.imp_left ?_⟩
  rintro ⟨c, hc, hmark⟩
  exact ⟨c, by rw [List.getLast?_append, Option.mem_def.mp hc]; rfl, hmark⟩

theorem Ends.head?_mem_marks (h : Ends rest) : ∀ c ∈ rest.head?, c ∈ marks := by
  intro c hc
  have := h c hc
  simp only [List.mem_cons, List.not_mem_nil, or_false] at this
  rcases this with rfl | rfl | rfl <;> decide

theorem cut_readText (hs : Separates stops) (hmarks : ∀ c ∈ stops, c ∈ marks)
    (h : readText stops s = (t, rest)) : Cut s rest := by
  obtain ⟨u, hu, -⟩ := readText_split hs h
  refine ⟨u, hu, .inr fun c hc => hmarks c ?_⟩
  have := head?_readText_mem stops s
  rw [h] at this
  exact this c hc

theorem cut_formatText (hs : Separates stops) (hmarks : ∀ c ∈ stops, c ∈ marks)
    (h : formatText stops s = (t, rest)) : Cut s rest ∨ rest = s := by
  by_cases hhead : s.head? = some ':'
  · obtain ⟨s, rfl⟩ := List.head?_eq_some_iff.mp hhead
    rw [formatText] at h
    exact .inl ((cut_readText hs hmarks h).after [':'])
  · rw [formatText_of_head hhead] at h
    cases h
    exact .inr rfl

theorem cut_name {names formats n f : List Char} (hs : NameStops names formats)
    (hmarks : ∀ c ∈ names, c ∈ marks) (h : ReadsName names formats s n f rest) : Cut s rest := by
  obtain ⟨r, hn, hf⟩ := h
  have hformats : ∀ c ∈ formats, c ∈ marks := fun c hc => hmarks c (hs.formats_subset c hc)
  rcases cut_formatText hs.separates_formats hformats hf with hcut | rfl
  · obtain ⟨u, rfl, -⟩ := readText_split hs.separates hn
    exact hcut.after u
  · exact cut_readText hs.separates hmarks hn

variable {stop : Stop}

theorem rest_of_expect {α : Type} {c : Char} {construct : Construct} {f : Tail s → Except Stop α}
    (hf : ∀ u, f u ≠ .error stop) (h : (expect c construct s >>= f) = .error stop) : stop.rest = s := by
  rcases expect_eq_error h with hrest | ⟨u, hu, -, hfu⟩
  · exact hrest
  · exact (hf ⟨u, hu⟩ hfu).elim

theorem reference_cut (h : reference s = .error stop) : Cut s stop.rest := by
  unfold reference at h
  split at h
  next hs =>
    rcases hn : readText ['('] s with ⟨n, r₁⟩
    obtain ⟨h₁, ht⟩ := text_eq hn
    obtain ⟨r₁, rfl⟩ := readText_of_firstOf hs hn
    rw [ht] at h
    dsimp only at h
    obtain ⟨u, rfl, -⟩ := readText_split (by decide) hn
    rw [← List.singleton_append, ← List.append_assoc]
    refine Cut.after _ ?_
    rcases expect_eq_error h with hrest | ⟨r₂, _, ha, h₂⟩
    · have ha : readText [')'] r₁ = (_, stop.rest) := Prod.ext rfl hrest.symm
      exact cut_readText (by decide) (by decide) ha
    · have ha : readText [')'] r₁ = (_, ')' :: r₂) := Prod.ext rfl ha
      have hrest := rest_of_expect (fun _ => pure_ne_error) h₂
      rw [formatAfterColon_snd] at hrest
      have hf : formatText formatStops r₂ = (_, stop.rest) := Prod.ext rfl hrest.symm
      obtain ⟨v, rfl, -⟩ := readText_split (by decide) ha
      rcases cut_formatText (by decide) (by decide) hf with hcut | hrest
      · exact (hcut.after [')']).after v
      · exact ⟨v ++ [')'], by simp [hrest], .inl ⟨')', by simp, by decide⟩⟩
  next hs =>
    dsimp only at h
    have hrest := rest_of_expect (fun _ => pure_ne_error) h
    rw [formatAfterColon_snd] at hrest
    exact cut_name nameStops_formatStops (by decide) ⟨_, rfl, Prod.ext rfl hrest.symm⟩

theorem switchHead_cut (h : switchHead s = .error stop) : Cut s stop.rest := by
  unfold switchHead at h
  split at h
  next hs =>
    dsimp only at h
    rcases expect_eq_error h with hrest | ⟨r₁, _, ht, h₂⟩
    · have ht : readText templateStops s = (_, stop.rest) := Prod.ext rfl hrest.symm
      exact cut_readText (by decide) (by decide) ht
    have ht : readText templateStops s = (_, '(' :: r₁) := Prod.ext rfl ht
    obtain ⟨u, rfl, -⟩ := readText_split (by decide) ht
    rw [← List.singleton_append, ← List.append_assoc]
    refine Cut.after _ ?_
    rcases expect_eq_error h₂ with hrest | ⟨r₂, _, hf, h₃⟩
    · rw [formatAfterColon_snd] at hrest
      exact cut_name templatedNameStops_templateStops (by decide) ⟨_, rfl, Prod.ext rfl hrest.symm⟩
    · have hrest := rest_of_expect (fun _ => pure_ne_error) h₃
      rw [formatAfterColon_snd] at hf
      have hname : ReadsName templatedNameStops templateStops r₁ _ _ (')' :: r₂) :=
        ⟨_, rfl, Prod.ext rfl hf⟩
      obtain ⟨v, rfl, -⟩ := hname.local templatedNameStops_templateStops
      exact ⟨v ++ [')'], by simp [hrest], .inl ⟨')', by simp, by decide⟩⟩
  next hs =>
    dsimp only at h
    have hrest := rest_of_expect (fun _ => pure_ne_error) h
    rw [formatAfterColon_snd] at hrest
    exact cut_name nameStops_formatStops (by decide) ⟨_, rfl, Prod.ext rfl hrest.symm⟩

end

theorem Reads.ends {s r : List Char} {found : List Part} (h : Reads s (.parts found) r) : Ends r := by
  generalize hphrase : Phrase.parts found = phrase at h
  induction h generalizing found with
  | nil => rintro c ⟨⟩
  | stop hc => exact ends_cons hc _
  | reference _ _ ih | switch _ _ _ _ ih | group _ _ _ _ ih | text _ _ _ ih =>
      cases hphrase
      exact ih rfl
  | _ => cases hphrase

section

variable {s r rest : List Char} {found : List Part}

theorem Reads.cut_after (h : Reads s (.parts found) r) (hr : rest = r ∨ Cut r rest) : Cut s rest := by
  obtain ⟨v, rfl, -⟩ := h.local
  rcases hr with rfl | hr
  · exact ⟨v, rfl, .inr h.ends.head?_mem_marks⟩
  · exact hr.after v

theorem group_cut {n : List Char} {body : Option Expression} (hname : readText nameStops s = (n, r))
    (hbody : Reads r (.body body) rest) : Cut s rest := by
  cases hbody with
  | noBody => exact cut_readText (by decide) (by decide) hname
  | someBody hparts =>
      obtain ⟨u, rfl, -⟩ := readText_split (by decide) hname
      exact ((hparts.cut_after (.inl rfl)).after [':']).after u

theorem cut_of_trimStart (h : Cut (Text.trimStart s) rest) : Cut s rest := by
  obtain ⟨v, hv⟩ := List.dropWhile_suffix (l := s) Text.isBlank
  rw [← hv]
  exact h.after v

end

/-- Wherever a reader fails, it is at a mark, behind one or at the end. What comes after a case may fail at once,
where the parts of the case have ended. -/
theorem cut_of_error :
    (∀ s stop, parts s = .error stop → Cut s stop.rest) ∧
    (∀ s stop, groupBody s = .error stop → Cut s stop.rest) ∧
    (∀ i s stop, cases i s = .error stop → Cut s stop.rest) ∧
    ∀ i s stop, moreCases i s = .error stop → stop.rest = s ∨ Cut s stop.rest := by
  refine parts.mutual_induct
    (fun s => ∀ stop, parts s = .error stop → Cut s stop.rest)
    (fun s => ∀ stop, groupBody s = .error stop → Cut s stop.rest)
    (fun i s => ∀ stop, cases i s = .error stop → Cut s stop.rest)
    (fun i s => ∀ stop, moreCases i s = .error stop → stop.rest = s ∨ Cut s stop.rest)
    ?_ ?_ ?_ ?_ ?_ ?_ ?_ ?_ ?_ ?_ ?_ ?_ ?_ ?_ ?_
  -- parts: nothing, a reference, a switch, a group, a stop, a text
  · intro stop h
    rw [parts] at h
    cases h
  · intro s ih stop h
    rw [parts] at h
    rcases bind_eq_error_iff.mp h with h | ⟨⟨ref, u, hu⟩, href, h⟩
    · exact (reference_cut h).after ['{']
    · have hmore := ih u hu stop (eq_error_of_bind (fun _ => pure_ne_error) h)
      obtain ⟨v, rfl, -⟩ := (returns_reference_iff.mp ⟨hu, href⟩).local
      exact hmore.after ('{' :: v)
  · intro s ihcases ihparts stop h
    rw [parts] at h
    rcases bind_eq_error_iff.mp h with h | ⟨⟨⟨template, subject⟩, u, hu⟩, hhead, h⟩
    · exact (switchHead_cut h).after ['#']
    obtain ⟨v, rfl, -⟩ := (returns_switchHead_iff.mp ⟨hu, hhead⟩).local
    rcases bind_eq_error_iff.mp h with hcases | ⟨⟨⟨cs, nullCase⟩, w, hw⟩, hcases, h⟩
    · exact (ihcases u hu stop hcases).after ('#' :: v)
    · have hmore := ihparts u hu w hw stop (eq_error_of_bind (fun _ => pure_ne_error) h)
      obtain ⟨x, rfl, -⟩ := (reads_of_returns.2.2.1 0 u (cs, nullCase) w ⟨hw, hcases⟩).local
      exact (hmore.after x).after ('#' :: v)
  · intro s name u hu hname ihbody ihparts stop h
    rw [parts, hname] at h
    cases hname
    obtain ⟨v, hv, -⟩ := readText_split (by decide) (rfl : readText nameStops s = (_, _))
    rcases bind_eq_error_iff.mp h with h | ⟨⟨body, w, hw⟩, hbody, h⟩
    · have := (ihbody stop h).after ('<' :: v)
      rwa [List.cons_append, ← hv] at this
    have hbody := reads_of_returns.2.1 _ body w ⟨hw, hbody⟩
    rcases expect_eq_error h with hrest | ⟨x, hx, rfl, h⟩
    · rw [hrest]
      exact (group_cut rfl hbody).after ['<']
    · have hmore := ihparts _ hw x hx stop (eq_error_of_bind (fun _ => pure_ne_error) h)
      obtain ⟨y, hy, -⟩ := hbody.local
      have := (hmore.after ['>']).after ('<' :: (v ++ y))
      rw [List.cons_append, List.append_assoc, List.singleton_append, ← hy, ← hv] at this
      exact this
  · intro c s h₁ h₂ h₃ hc stop h
    rw [parts, dif_pos hc] at h
    · cases h
    all_goals assumption
  · intro c s h₁ h₂ h₃ hc content u hu htext _ ih stop h
    rw [parts, dif_neg hc] at h
    · cases htext
      have hmore := ih stop (eq_error_of_bind (fun _ => pure_ne_error) h)
      obtain ⟨v, hv, -⟩ := readText_split (by decide) (rfl : readText textStops (c :: s) = (_, _))
      rw [hv]
      exact hmore.after v
    all_goals assumption
  -- the body of a group, there or not
  · intro s ih stop h
    rw [groupBody] at h
    exact (ih stop (eq_error_of_bind (fun _ => pure_ne_error) h)).after [':']
  · intro s hs stop h
    rw [groupBody] at h
    · cases h
    · exact hs
  -- cases: none, a null case, another case
  · intro i s stop h
    rw [cases] at h
    cases h
  · intro i s hs _ q hq _ _ ihparts ihmore stop h
    have hs : s.head? ≠ some '}' := by rintro h; cases s <;> simp_all
    refine cut_of_trimStart ?_
    rw [Text.trimStart, hq]
    refine Cut.after ['?'] (cut_of_trimStart ?_)
    rcases cases_nullCase_error hs hq h with h | ⟨body, u, hbody, h⟩
    · exact ihparts stop h
    · exact (reads_of_returns.1 _ body u hbody).cut_after (ihmore u hbody.1 stop h)
  · intro i s hs _ spelling u hq _ hu hcond ihparts ihmore stop h
    have hs : s.head? ≠ some '}' := by rintro h; cases s <;> simp_all
    have hq : (Text.trimStart s).head? ≠ some '?' := by
      intro h
      obtain ⟨q, h⟩ := List.head?_eq_some_iff.mp h
      exact hq q h
    obtain ⟨spelling', u', hcond', h⟩ := cases_case_error hs hq h
    obtain ⟨hu', hcond''⟩ := condition_iff.mpr hcond'
    cases hcond.symm.trans hcond''
    refine cut_of_trimStart ?_
    obtain ⟨v, hv, -⟩ := hcond'.local
    rw [hv]
    refine Cut.after v ?_
    rcases h with h | ⟨body, w, hbody, h⟩
    · exact ihparts stop h
    · exact (reads_of_returns.1 _ body w hbody).cut_after (ihmore w hbody.1 stop h)
  -- after a case: the end of the switch, a bar, or what may not stand there
  · intro i s stop h
    rw [moreCases] at h
    cases h
  · intro i s ih stop h
    rw [moreCases] at h
    exact .inr ((ih stop (eq_error_of_bind (fun _ => pure_ne_error) h)).after ['|'])
  · intro i stop h
    rw [moreCases] at h
    cases h
    exact .inl rfl
  · intro i c s h₁ h₂ stop h
    rw [moreCases] at h
    · cases h
      exact .inl rfl
    · exact h₁
    · exact h₂

theorem expression_cut {s : List Char} {stop : Stop} (h : expression s = .error stop) : Cut s stop.rest := by
  unfold expression at h
  rcases bind_eq_error_iff.mp h with h | ⟨⟨found, r, hr⟩, hparts, h⟩
  · exact cut_of_error.1 s stop h
  · cases r with
    | nil => cases h
    | cons c r =>
        cases h
        exact (reads_of_returns.1 s found (c :: r) ⟨hr, hparts⟩).cut_after (.inl rfl)

theorem Stop.position_locate {u : List Char} (stop : Stop) :
    (stop.locate (u ++ stop.rest)).position = .after u := by
  rw [Stop.locate]
  simp

end Reader

namespace Expression

/-- A syntax error is reported before a mark, right behind one, or at the end of the pattern. -/
theorem read_error_cut {pattern : String} {e : SyntaxError} (h : read pattern = .error e) :
    ∃ u r, pattern.toList = u ++ r ∧ e.position = .after u ∧
      ((∃ c ∈ u.getLast?, c ∈ Reader.marks) ∨ ∀ c ∈ r.head?, c ∈ Reader.marks) := by
  unfold read at h
  cases hread : Reader.expression pattern.toList with
  | ok found =>
      rw [hread] at h
      cases h
  | error stop =>
      rw [hread] at h
      cases h
      obtain ⟨u, hu, hmark⟩ := Reader.expression_cut hread
      exact ⟨u, stop.rest, hu, by rw [hu, stop.position_locate], hmark⟩

end Expression

end Phrasebook
