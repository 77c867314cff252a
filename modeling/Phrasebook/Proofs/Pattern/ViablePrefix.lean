import Phrasebook.Proofs.Pattern.Locality

namespace Phrasebook

/-- A place, told in each of its three ways, is the one right after a text. -/
structure Position.IsAfter (p : Position) (s : String) : Prop where
  offset_eq : p.offset = s.utf8ByteSize
  line_eq : p.line = s.toList.count '\n' + 1
  column_eq : p.column = (s.toList.rtakeWhile (· ≠ '\n')).length + 1

theorem Position.advance_append (p : Position) (s t : List Char) :
    p.advance (s ++ t) = (p.advance s).advance t := by
  induction s generalizing p with
  | nil => rfl
  | cons c s ih =>
      rw [List.cons_append, advance, advance]
      split <;> exact ih _

theorem Position.isAfter_after (s : List Char) : (Position.after s).IsAfter (String.ofList s) := by
  induction s using List.reverseRecOn with
  | nil => exact ⟨rfl, rfl, rfl⟩
  | append_singleton s c ih =>
      obtain ⟨hoffset, hline, hcolumn⟩ := ih
      rw [String.toList_ofList] at hline hcolumn
      have hsize : (String.ofList (s ++ [c])).utf8ByteSize = (String.ofList s).utf8ByteSize + c.utf8Size := by
        rw [String.ofList_append, String.utf8ByteSize_append, ← String.singleton_eq_ofList,
          String.utf8ByteSize_singleton]
      unfold Position.after at hoffset hline hcolumn ⊢
      rw [Position.advance_append]
      by_cases hc : c = '\n'
      · subst hc
        refine ⟨?_, ?_, ?_⟩
        · rw [hsize, ← hoffset]
          rfl
        · rw [String.toList_ofList, List.count_append, Nat.add_right_comm, ← hline]
          rfl
        · rw [String.toList_ofList, List.rtakeWhile_concat_neg]
          · rfl
          · simp
      · simp only [advance, if_neg hc]
        refine ⟨?_, ?_, ?_⟩
        · rw [hsize, ← hoffset]
        · simp [String.toList_ofList, List.count_append, hc, hline]
        · rw [String.toList_ofList, List.rtakeWhile_concat_pos]
          · simp [hcolumn]
          · simpa using hc

namespace Reader

/-- A text that may be put where reading stopped. It holds no colon, which could make a condition of the
text before it, and no backslash. -/
def IsMend (t : List Char) : Prop :=
  t ≠ [] ∧ ':' ∉ t ∧ '\\' ∉ t

instance {t : List Char} : Decidable (IsMend t) :=
  inferInstanceAs (Decidable (_ ∧ _))

/-- What was taken of a text before the rest is the beginning of a text that has the property. -/
def Viable (P : List Char → List Char → Prop) (s rest : List Char) : Prop :=
  ∃ u t, s = u ++ rest ∧ IsMend t ∧ ∀ r, Ends r → P (u ++ (t ++ r)) r

def ViableAfter (c : Char) (P : List Char → List Char → Prop) (s rest : List Char) : Prop :=
  ∃ s', s = c :: s' ∧ Viable (fun x r => P (c :: x) r) s' rest

def ReadsSome {α : Type} (kind : α → Phrase) (s r : List Char) : Prop :=
  ∃ found, Reads s (kind found) r

def Phrase.ofCases (i : Nat) (found : List Case × Option NullCase) : Phrase :=
  .cases i found.1 found.2

def Phrase.ofMoreCases (i : Nat) (found : List Case × Option NullCase) : Phrase :=
  .moreCases i found.1 found.2

section

variable {P Q : List Char → List Char → Prop} {c : Char} {s rest v : List Char}

theorem Viable.map (h : Viable P s rest) (hPQ : ∀ x r, Ends r → P x r → Q (v ++ x) r) :
    Viable Q (v ++ s) rest := by
  obtain ⟨u, t, rfl, ht, hP⟩ := h
  refine ⟨v ++ u, t, by rw [List.append_assoc], ht, fun r hr => ?_⟩
  rw [List.append_assoc]
  exact hPQ _ r hr (hP r hr)

theorem viable_of_mend {u t : List Char} (hs : s = u ++ rest) (ht : IsMend t)
    (hP : ∀ r, Ends r → P (u ++ (t ++ r)) r) : Viable P s rest :=
  ⟨u, t, hs, ht, hP⟩

theorem ViableAfter.viable (h : ViableAfter c P s rest) : Viable P s rest := by
  obtain ⟨s, rfl, h⟩ := h
  exact h.map (v := [c]) fun _ _ _ h => h

end

theorem bind_eq_error_iff {ε α β : Type} {x : Except ε α} {f : α → Except ε β} {e : ε} :
    (x >>= f) = .error e ↔ x = .error e ∨ ∃ a, x = .ok a ∧ f a = .error e := by
  cases x with
  | error e' =>
      constructor
      · rintro ⟨⟩
        exact .inl rfl
      · rintro (⟨⟨⟩⟩ | ⟨a, ⟨⟩, -⟩)
        rfl
  | ok a =>
      constructor
      · intro h
        exact .inr ⟨a, rfl, h⟩
      · rintro (⟨⟨⟩⟩ | ⟨a', ⟨⟩, h⟩)
        exact h

section

variable {α : Type} {s : List Char} {stop : Stop}

theorem expect_eq_error {c : Char} {construct : Construct} {f : Tail s → Except Stop α}
    (h : (expect c construct s >>= f) = .error stop) :
    stop.rest = s ∨ ∃ u hu, s = c :: u ∧ f ⟨u, hu⟩ = .error stop := by
  cases s with
  | nil =>
      cases h
      exact .inl rfl
  | cons d s =>
      by_cases hd : d = c
      · subst hd
        rw [expect, if_pos rfl] at h
        exact .inr ⟨s, Nat.lt_succ_self _, rfl, h⟩
      · rw [expect, if_neg hd] at h
        cases h
        exact .inl rfl

theorem pure_ne_error {a : α} : (pure a : Except Stop α) ≠ .error stop := by
  rintro ⟨⟩

theorem eq_error_of_bind {β : Type} {x : Except Stop β} {f : β → Except Stop α}
    (hf : ∀ b, f b ≠ .error stop) (h : (x >>= f) = .error stop) : x = .error stop := by
  rcases bind_eq_error_iff.mp h with h | ⟨b, -, h⟩
  · exact h
  · exact (hf b h).elim

theorem formatText_viable {stops f r : List Char} (d : Char) (hs : Separates stops)
    (h : formatText stops s = (f, r)) (hd : d ∈ stops) (hmend : IsMend [d]) (hmend' : IsMend [filler, d]) :
    Viable (fun x r => ∃ f', formatText stops x = (f', d :: r)) s r := by
  rcases formatText_ended hs h with ⟨-, rfl⟩ | ⟨v, rfl, hv⟩
  · refine viable_of_mend (u := []) rfl hmend fun r _ => ⟨[], formatText_of_head ?_⟩
    rintro ⟨⟩
    exact hmend.2.1 List.mem_cons_self
  · obtain ⟨f', hf'⟩ := hv d hd
    exact viable_of_mend (u := ':' :: v) rfl hmend' fun r _ => ⟨f', hf' r⟩

def ReadsArguments (s r : List Char) : Prop :=
  ∃ a f r₁, readText [')'] s = (a, ')' :: r₁) ∧ formatText formatStops r₁ = (f, '}' :: r)

theorem call_viable {n r₁ rest : List Char} (hs : firstOf ['(', ':', '}'] s = some '(')
    (hn : readText ['('] s = (n, '(' :: r₁)) (h : Viable ReadsArguments r₁ rest) :
    Viable (fun x r => ∃ ref, ReadsReference x ref r) s rest := by
  obtain ⟨u, rfl, hu, hname⟩ := readText_local (by decide) hn (List.cons_ne_nil _ _)
  rw [← List.singleton_append, ← List.append_assoc]
  refine h.map fun x r _ => ?_
  rintro ⟨a, f, r₂, ha, hf⟩
  rw [List.append_assoc, List.singleton_append]
  refine ⟨_, .call ?_ (hname ('(' :: x) rfl) ha hf⟩
  rwa [hu.firstOf_congr (by decide) (by decide) x r₁]

theorem reference_viable (h : reference s = .error stop) :
    Viable (fun x r => ∃ ref, ReadsReference x ref r) s stop.rest := by
  unfold reference at h
  split at h
  next hs =>
    rcases hn : readText ['('] s with ⟨n, r₁⟩
    obtain ⟨h₁, ht⟩ := text_eq hn
    obtain ⟨r₁, rfl⟩ := readText_of_firstOf hs hn
    rw [ht] at h
    dsimp only at h
    refine call_viable hs hn ?_
    rcases expect_eq_error h with hrest | ⟨r₂, _, ha, h₂⟩
    · have ha : readText [')'] r₁ = (_, stop.rest) := Prod.ext rfl hrest.symm
      obtain ⟨v, hv, hended⟩ := readText_ended (by decide) ha
      obtain ⟨a, harguments⟩ := hended ')' (by decide)
      exact viable_of_mend (t := [filler, ')', '}']) hv (by decide) fun r _ =>
        ⟨a, [], '}' :: r, harguments _, rfl⟩
    · have ha : readText [')'] r₁ = (_, ')' :: r₂) := Prod.ext rfl ha
      obtain ⟨v, rfl, -, harguments⟩ := readText_local (by decide) ha (List.cons_ne_nil _ _)
      rcases expect_eq_error h₂ with hrest | ⟨r, _, _, h₃⟩
      · rw [formatAfterColon_snd] at hrest
        have hf : formatText formatStops r₂ = (_, stop.rest) := Prod.ext rfl hrest.symm
        rw [← List.singleton_append, ← List.append_assoc]
        refine (formatText_viable '}' (by decide) hf (by decide) (by decide) (by decide)).map fun x r _ => ?_
        rintro ⟨f, hf⟩
        rw [List.append_assoc, List.singleton_append]
        exact ⟨_, f, x, harguments (')' :: x) rfl, hf⟩
      · exact (pure_ne_error h₃).elim
  next hs =>
    dsimp only at h
    rcases expect_eq_error h with hrest | ⟨u, _, _, h₂⟩
    · rw [formatAfterColon_snd] at hrest
      have hname : ReadsName nameStops formatStops s _ _ stop.rest := ⟨_, rfl, Prod.ext rfl hrest.symm⟩
      obtain ⟨v, hv, hended⟩ := hname.ended nameStops_formatStops
      obtain ⟨n', f', hread⟩ := hended '}' (by decide)
      refine viable_of_mend (t := [filler, '}']) hv (by decide) fun r _ => ?_
      obtain ⟨r₁, hn, hf⟩ := hread r
      rw [hv] at hs
      exact ⟨_, .plain (firstOf_append_ne hs (by simp [firstOf, filler]) (by simp [firstOf])) hn hf⟩
    · exact (pure_ne_error h₂).elim

def ReadsTemplated (s r : List Char) : Prop :=
  ∃ n f, ReadsName templatedNameStops templateStops s n f (')' :: '{' :: r)

theorem templated_viable {t r₁ rest : List Char} (hs : firstOf ['(', ':', '{'] s = some '(')
    (ht : readText templateStops s = (t, '(' :: r₁))
    (h : Viable (fun x r => ReadsTemplated x ('}' :: r)) r₁ rest) :
    Viable (fun x r => ∃ template subject, ReadsHead x template subject ('}' :: r)) s rest := by
  obtain ⟨u, rfl, hu, htemplate⟩ := readText_local (by decide) ht (List.cons_ne_nil _ _)
  rw [← List.singleton_append, ← List.append_assoc]
  refine h.map fun x r _ => ?_
  rintro ⟨n, f, r₂, hn, hf⟩
  rw [List.append_assoc, List.singleton_append]
  refine ⟨_, _, .templated ?_ (htemplate ('(' :: x) rfl) hn hf⟩
  rwa [hu.firstOf_congr (by decide) (by decide) x r₁]

theorem switchHead_viable (h : switchHead s = .error stop) :
    Viable (fun x r => ∃ template subject, ReadsHead x template subject ('}' :: r)) s stop.rest := by
  unfold switchHead at h
  split at h
  next hs =>
    dsimp only at h
    rcases expect_eq_error h with hrest | ⟨r₁, _, ht, h₂⟩
    · have ht : readText templateStops s = (_, stop.rest) := Prod.ext rfl hrest.symm
      obtain ⟨u, hu, hspells, -⟩ := readText_split (by decide) ht
      have hspells := hspells (readText_ne_nil hs (by decide) ht)
      refine viable_of_mend (t := ['(', ')', '{', '}']) hu (by decide) fun r _ => ?_
      refine ⟨_, _, .templated ?_ (hspells.readText_stop (by decide) (by decide) _) rfl rfl⟩
      rcases hspells.isWhole.firstOf_append with ⟨c, hc⟩ | hc
      · rw [hu, hc] at hs
        exact (hc _).trans hs
      · exact hc _
    · have ht : readText templateStops s = (_, '(' :: r₁) := Prod.ext rfl ht
      rcases expect_eq_error h₂ with hrest | ⟨r₂, _, hf, h₃⟩
      · rw [formatAfterColon_snd] at hrest
        have hname : ReadsName templatedNameStops templateStops r₁ _ _ stop.rest :=
          ⟨_, rfl, Prod.ext rfl hrest.symm⟩
        obtain ⟨v, hv, hended⟩ := hname.ended templatedNameStops_templateStops
        obtain ⟨n, f, hread⟩ := hended ')' (by decide)
        exact templated_viable hs ht <| viable_of_mend (t := [filler, ')', '{', '}']) hv (by decide) fun r _ =>
          ⟨n, f, hread _⟩
      · rcases expect_eq_error h₃ with hrest | ⟨r₃, _, _, h₄⟩
        · rw [formatAfterColon_snd] at hf
          have hname : ReadsName templatedNameStops templateStops r₁ _ _ (')' :: stop.rest) :=
            ⟨_, rfl, Prod.ext rfl (hrest ▸ hf)⟩
          obtain ⟨v, rfl, -, hread⟩ := hname.local templatedNameStops_templateStops
          exact templated_viable hs ht <| viable_of_mend (u := v ++ [')']) (t := ['{', '}']) (by simp)
            (by decide) fun r _ => ⟨_, _, by simpa using hread _⟩
        · exact (pure_ne_error h₄).elim
  next hs =>
    dsimp only at h
    rcases expect_eq_error h with hrest | ⟨u, _, _, h₂⟩
    · rw [formatAfterColon_snd] at hrest
      have hname : ReadsName nameStops formatStops s _ _ stop.rest := ⟨_, rfl, Prod.ext rfl hrest.symm⟩
      obtain ⟨v, hv, hended⟩ := hname.ended nameStops_formatStops
      obtain ⟨n', f', hread⟩ := hended '{' (by decide)
      refine viable_of_mend (t := [filler, '{', '}']) hv (by decide) fun r _ => ?_
      obtain ⟨r₁, hn, hf⟩ := hread ('}' :: r)
      rw [hv] at hs
      exact ⟨_, _, .plain (firstOf_append_ne hs (by simp [firstOf, filler]) (by simp [firstOf])) hn hf⟩
    · exact (pure_ne_error h₂).elim

end

theorem IsMend.append {t t' : List Char} (h : IsMend t) (h' : IsMend t') : IsMend (t ++ t') := by
  obtain ⟨hne, hcolon, hb⟩ := h
  obtain ⟨-, hcolon', hb'⟩ := h'
  refine ⟨by simp [hne], ?_, ?_⟩ <;> rw [List.mem_append, not_or]
  · exact ⟨hcolon, hcolon'⟩
  · exact ⟨hb, hb'⟩

theorem firstOf_brace_ne {t : List Char} (hcolon : ':' ∉ t) (hb : '\\' ∉ t) (r : List Char) :
    firstOf conditionStops (t ++ '}' :: r) ≠ some ':' := by
  induction t with
  | nil =>
      rw [List.nil_append, firstOf_mark (by decide) (by decide)]
      decide
  | cons c t ih =>
      rw [List.mem_cons, not_or] at hcolon hb
      by_cases hc : c ∈ conditionStops
      · rw [List.cons_append, firstOf_mark hc (Ne.symm hb.1)]
        exact fun he => hcolon.1 (Option.some.inj he).symm
      · rw [List.cons_append, firstOf_cons hc (Ne.symm hb.1)]
        exact ih hcolon.2 hb.2

theorem IsMend.firstOf_append_ne {t u rest : List Char} (h : IsMend t)
    (hs : firstOf conditionStops (u ++ rest) ≠ some ':') (r : List Char) :
    firstOf conditionStops (u ++ (t ++ '}' :: r)) ≠ some ':' := by
  obtain ⟨hne, hcolon, hb⟩ := h
  refine Reader.firstOf_append_ne hs (firstOf_brace_ne hcolon hb r) ?_
  rw [List.tail_append_of_ne_nil hne]
  exact firstOf_brace_ne (fun h => hcolon (List.mem_of_mem_tail h)) (fun h => hb (List.mem_of_mem_tail h)) r

section

variable {i j : Nat} {make : List Part → List Case → Option NullCase → List Case × Option NullCase}
  {p s rest : List Char}

theorem Opens.viable_body {c : Char} (h : Opens i j make p s)
    (hbody : ViableAfter c (ReadsSome .parts) s rest) : Viable (ReadsSome (.ofCases i)) (p ++ s) rest := by
  obtain ⟨s, rfl, u, t, rfl, ht, hread⟩ := hbody
  refine viable_of_mend (u := p ++ c :: u) (t := t ++ ['}']) (by simp) (ht.append (by decide)) fun r _ => ?_
  obtain ⟨found, hfound⟩ := hread ('}' :: r) (ends_cons (by decide) r)
  refine ⟨make found [] none, ?_⟩
  simp only [List.append_assoc, List.singleton_append]
  exact h.reads (.inl rfl) (fun hs => ht.firstOf_append_ne (u := c :: u) hs r) hfound .close

theorem Opens.viable_more {found : List Part} {r : List Char} (h : Opens i j make p s)
    (hbody : Reads s (.parts found) r)
    (hmore : rest = r ∨ ViableAfter '|' (ReadsSome (.ofMoreCases j)) r rest) :
    Viable (ReadsSome (.ofCases i)) (p ++ s) rest := by
  obtain ⟨v, rfl, hv, hended⟩ := hbody.local
  rcases hmore with rfl | ⟨s, rfl, u, t, rfl, ht, hread⟩
  · refine viable_of_mend (u := p ++ v) (t := [filler, '}']) (by simp) (by decide) fun r _ => ?_
    obtain ⟨found', hfound⟩ := hended ('}' :: r) (ends_cons (by decide) r)
    have hbegin : BeginsAs (v ++ filler :: '}' :: r) (v ++ rest) := by
      cases v with
      | nil => exact .inr rfl
      | cons c v => exact .inl rfl
    refine ⟨make found' [] none, ?_⟩
    rw [List.append_assoc]
    exact h.reads hbegin (fun hs => IsMend.firstOf_append_ne (t := [filler]) (by decide) hs r) hfound .close
  · obtain ⟨hv, hbody⟩ := hv (List.cons_ne_nil _ _)
    refine viable_of_mend (u := p ++ (v ++ '|' :: u)) (by simp) ht fun r hr => ?_
    obtain ⟨cs, hcs⟩ := hread r hr
    have hbegin : BeginsAs ('|' :: (u ++ (t ++ r))) ('|' :: (u ++ rest)) := .inl rfl
    refine ⟨make found cs.1 cs.2, ?_⟩
    simp only [List.append_assoc, List.cons_append]
    refine h.reads (hbegin.append v) ?_ (hbody _ (ends_cons (by decide) _)) hcs
    rw [hv.firstOf_congr (by decide) (by decide) (u ++ (t ++ r)) (u ++ rest)]
    exact id

end

section

variable {c d : Char} {s r rest : List Char}

theorem Leads.viable {p : Part} (h : Leads c p s r) (hmore : ViableAfter d (ReadsSome .parts) r rest) :
    ViableAfter c (ReadsSome .parts) (c :: s) rest := by
  obtain ⟨v, rfl, -, hp⟩ := h
  refine ⟨_, rfl, hmore.viable.map fun x r _ => ?_⟩
  rintro ⟨found, hfound⟩
  exact ⟨p :: found, hp hfound⟩

theorem text_viable {t : List Char} (hc : c ∉ textStops) (ht : readText textStops (c :: s) = (t, r))
    (hmore : ViableAfter d (ReadsSome .parts) r rest) : ViableAfter c (ReadsSome .parts) (c :: s) rest := by
  obtain ⟨r, rfl, hmore⟩ := hmore
  obtain ⟨u, he, -, hread⟩ := readText_local (by decide) ht (List.cons_ne_nil d r)
  cases u with
  | nil =>
      cases he
      exact (hc (mem_of_readText ht)).elim
  | cons e u =>
      cases he
      refine ⟨u ++ d :: r, rfl, ?_⟩
      rw [← List.singleton_append, ← List.append_assoc]
      refine hmore.map fun x r _ => ?_
      rintro ⟨found, hfound⟩
      rw [List.append_assoc]
      exact ⟨_, .text hc (hread (d :: x) rfl) hfound⟩

theorem group_viable {n : List Char} (hname : readText nameStops s = (n, r))
    (hbody : ViableAfter ':' (ReadsSome .body) r rest) :
    ViableAfter '<' (ReadsSome .parts) ('<' :: s) rest := by
  obtain ⟨r, rfl, u, t, rfl, ht, hbody⟩ := hbody
  obtain ⟨v, rfl, -, hread⟩ := readText_local (by decide) hname (List.cons_ne_nil _ _)
  refine ⟨_, rfl, viable_of_mend (u := v ++ ':' :: u) (t := t ++ ['>']) (by simp) (ht.append (by decide))
    fun r hr => ?_⟩
  obtain ⟨body, hfound⟩ := hbody ('>' :: r) (ends_cons (by decide) r)
  simp only [List.append_assoc, List.cons_append, List.nil_append]
  exact ⟨_, .group (hread _ rfl) hfound hr.reads⟩

theorem group_viable_of_body {n : List Char} {body : Option Expression}
    (hname : readText nameStops s = (n, r)) (hbody : Reads r (.body body) rest) :
    ViableAfter '<' (ReadsSome .parts) ('<' :: s) rest := by
  cases hbody with
  | someBody hparts =>
      obtain ⟨w, rfl, -, hended⟩ := hparts.local
      obtain ⟨v, rfl, -, hread⟩ := readText_local (by decide) hname (List.cons_ne_nil _ _)
      refine ⟨_, rfl, viable_of_mend (u := v ++ ':' :: w) (t := [filler, '>']) (by simp) (by decide)
        fun r hr => ?_⟩
      obtain ⟨found, hfound⟩ := hended ('>' :: r) (ends_cons (by decide) r)
      simp only [List.append_assoc, List.cons_append, List.nil_append]
      exact ⟨_, .group (hread _ rfl) (.someBody hfound) hr.reads⟩
  | noBody _ =>
      obtain ⟨v, rfl, hended⟩ := readText_ended (by decide) hname
      obtain ⟨n, hread⟩ := hended '>' (by decide)
      refine ⟨_, rfl, viable_of_mend (t := [filler, '>']) rfl (by decide) fun r hr => ?_⟩
      exact ⟨_, .group (hread r) (.noBody (by rintro ⟨⟩)) hr.reads⟩

end

section

variable {s q : List Char} {i : Nat} {stop : Stop}

theorem cases_nullCase_error (hs : s.head? ≠ some '}') (hq : Text.trimStart s = '?' :: q)
    (h : cases i s = .error stop) : parts (Text.trimStart q) = .error stop ∨
      ∃ body u, Returns (parts (Text.trimStart q)) body u ∧ moreCases i u = .error stop := by
  rw [cases] at h
  · split at h
    next q' hq' =>
      cases hq.symm.trans hq'
      rcases bind_eq_error_iff.mp h with h | ⟨⟨body, u, hu⟩, hbody, h⟩
      · exact .inl h
      · exact .inr ⟨body, u, ⟨hu, hbody⟩, eq_error_of_bind (fun _ => pure_ne_error) h⟩
    next hq' => exact (hq' q hq).elim
  · rintro u rfl
    exact hs rfl

theorem cases_case_error (hs : s.head? ≠ some '}') (hq : (Text.trimStart s).head? ≠ some '?')
    (h : cases i s = .error stop) : ∃ spelling u, ReadsCondition (Text.trimStart s) spelling u ∧
      (parts u = .error stop ∨
        ∃ body v, Returns (parts u) body v ∧ moreCases (i + 1) v = .error stop) := by
  rw [cases] at h
  · split at h
    next q' hq' => exact (hq (by rw [Text.trimStart, hq']; rfl)).elim
    next hq' =>
      rcases hcond : condition (s.dropWhile Text.isBlank) with ⟨spelling, u, hu⟩
      rw [hcond] at h
      refine ⟨spelling, u, condition_iff.mp ⟨hu, hcond⟩, ?_⟩
      rcases bind_eq_error_iff.mp h with h | ⟨⟨body, v, hv⟩, hbody, h⟩
      · exact .inl h
      · exact .inr ⟨body, v, ⟨hv, hbody⟩, eq_error_of_bind (fun _ => pure_ne_error) h⟩
  · rintro u rfl
    exact hs rfl

end

/-- Wherever a reader fails, what it took can be completed. Parts fail behind a first character, which keeps
the blanks before them from growing; what comes after a case may fail at once. -/
theorem viable_of_error :
    (∀ s stop, parts s = .error stop → ∃ c, ViableAfter c (ReadsSome .parts) s stop.rest) ∧
    (∀ s stop, groupBody s = .error stop → ViableAfter ':' (ReadsSome .body) s stop.rest) ∧
    (∀ i s stop, cases i s = .error stop → Viable (ReadsSome (.ofCases i)) s stop.rest) ∧
    ∀ i s stop, moreCases i s = .error stop →
      stop.rest = s ∨ ViableAfter '|' (ReadsSome (.ofMoreCases i)) s stop.rest := by
  refine parts.mutual_induct
    (fun s => ∀ stop, parts s = .error stop → ∃ c, ViableAfter c (ReadsSome .parts) s stop.rest)
    (fun s => ∀ stop, groupBody s = .error stop → ViableAfter ':' (ReadsSome .body) s stop.rest)
    (fun i s => ∀ stop, cases i s = .error stop → Viable (ReadsSome (.ofCases i)) s stop.rest)
    (fun i s => ∀ stop, moreCases i s = .error stop →
      stop.rest = s ∨ ViableAfter '|' (ReadsSome (.ofMoreCases i)) s stop.rest)
    ?_ ?_ ?_ ?_ ?_ ?_ ?_ ?_ ?_ ?_ ?_ ?_ ?_ ?_ ?_
  -- parts: nothing, a reference, a switch, a group, a stop, a text
  · intro stop h
    rw [parts] at h
    cases h
  · intro s ih stop h
    rw [parts] at h
    rcases bind_eq_error_iff.mp h with h | ⟨⟨ref, u, hu⟩, href, h⟩
    · refine ⟨'{', s, rfl, (reference_viable h).map (v := []) fun x r hr => ?_⟩
      rintro ⟨ref, href⟩
      exact ⟨_, .reference href hr.reads⟩
    · obtain ⟨c, hmore⟩ := ih u hu stop (eq_error_of_bind (fun _ => pure_ne_error) h)
      exact ⟨'{', (returns_reference_iff.mp ⟨hu, href⟩).leads.viable hmore⟩
  · intro s ihcases ihparts stop h
    rw [parts] at h
    rcases bind_eq_error_iff.mp h with h | ⟨⟨⟨template, subject⟩, u, hu⟩, hhead, h⟩
    · refine ⟨'#', s, rfl, (switchHead_viable h).map (v := []) fun x r hr => ?_⟩
      rintro ⟨template, subject, hhead⟩
      exact ⟨_, .switch hhead .noCases hr.reads⟩
    have hhead := returns_switchHead_iff.mp ⟨hu, hhead⟩
    rcases bind_eq_error_iff.mp h with hcases | ⟨⟨⟨cs, nullCase⟩, v, hv⟩, hcases, h⟩
    · have hviable := ihcases u hu stop hcases
      obtain ⟨w, rfl, -, hread⟩ := hhead.local
      refine ⟨'#', _, rfl, hviable.map fun x r hr => ?_⟩
      rintro ⟨cs, hcs⟩
      exact ⟨_, .switch (hread _) hcs hr.reads⟩
    · obtain ⟨c, hmore⟩ := ihparts u hu v hv stop (eq_error_of_bind (fun _ => pure_ne_error) h)
      have hcases := reads_of_returns.2.2.1 0 u (cs, nullCase) v ⟨hv, hcases⟩
      exact ⟨'#', (hhead.leads hcases.local).viable hmore⟩
  · intro s name u hu hname ihbody ihparts stop h
    rw [parts, hname] at h
    cases hname
    rcases bind_eq_error_iff.mp h with h | ⟨⟨body, v, hv⟩, hbody, h⟩
    · exact ⟨'<', group_viable rfl (ihbody stop h)⟩
    have hbody := reads_of_returns.2.1 _ body v ⟨hv, hbody⟩
    rcases expect_eq_error h with hrest | ⟨w, hw, rfl, h⟩
    · rw [hrest]
      exact ⟨'<', group_viable_of_body rfl hbody⟩
    · obtain ⟨c, hmore⟩ := ihparts _ hv w hw stop (eq_error_of_bind (fun _ => pure_ne_error) h)
      exact ⟨'<', (leads_group rfl hbody.local).viable hmore⟩
  · intro c s h₁ h₂ h₃ hc stop h
    rw [parts, dif_pos hc] at h
    · cases h
    all_goals assumption
  · intro c s h₁ h₂ h₃ hc content u hu htext _ ih stop h
    rw [parts, dif_neg hc] at h
    · cases htext
      obtain ⟨d, hmore⟩ := ih stop (eq_error_of_bind (fun _ => pure_ne_error) h)
      exact ⟨c, text_viable hc rfl hmore⟩
    all_goals assumption
  -- the body of a group, there or not
  · intro s ih stop h
    rw [groupBody] at h
    obtain ⟨c, hparts⟩ := ih stop (eq_error_of_bind (fun _ => pure_ne_error) h)
    refine ⟨s, rfl, hparts.viable.map (v := []) fun x r _ => ?_⟩
    rintro ⟨found, hfound⟩
    exact ⟨_, .someBody hfound⟩
  · intro s hs stop h
    rw [groupBody] at h
    · cases h
    · exact hs
  -- cases: none, a null case, another case; `hp` splits the text before its body
  · intro i s stop h
    rw [cases] at h
    cases h
  · intro i s hs _ q hq _ _ ihparts ihmore stop h
    have hs : s.head? ≠ some '}' := by rintro h; cases s <;> simp_all
    obtain ⟨p, hp, hopens⟩ := opens_nullCase (i := i) hs hq
    rw [hp]
    rcases cases_nullCase_error hs hq h with h | ⟨body, u, hbody, h⟩
    · obtain ⟨c, hbody⟩ := ihparts stop h
      exact hopens.viable_body hbody
    · exact hopens.viable_more (reads_of_returns.1 _ body u hbody) (ihmore u hbody.1 stop h)
  · intro i s hs _ spelling u hq _ hu hcond ihparts ihmore stop h
    have hs : s.head? ≠ some '}' := by rintro h; cases s <;> simp_all
    have hq : (Text.trimStart s).head? ≠ some '?' := by
      intro h
      obtain ⟨q, h⟩ := List.head?_eq_some_iff.mp h
      exact hq q h
    obtain ⟨spelling', u', hcond', h⟩ := cases_case_error hs hq h
    obtain ⟨hu', hcond''⟩ := condition_iff.mpr hcond'
    cases hcond.symm.trans hcond''
    obtain ⟨p, hp, hopens⟩ := opens_case (i := i) hs hq hcond'
    rw [hp]
    rcases h with h | ⟨body, v, hbody, h⟩
    · obtain ⟨c, hbody⟩ := ihparts stop h
      exact hopens.viable_body hbody
    · exact hopens.viable_more (reads_of_returns.1 _ body v hbody) (ihmore v hbody.1 stop h)
  -- after a case: the end of the switch, a bar, or what may not stand there
  · intro i s stop h
    rw [moreCases] at h
    cases h
  · intro i s ih stop h
    rw [moreCases] at h
    have h := eq_error_of_bind (fun _ => pure_ne_error) h
    refine .inr ⟨s, rfl, (ih stop h).map (v := []) fun x r _ => ?_⟩
    rintro ⟨cs, hcs⟩
    exact ⟨cs, .bar hcs⟩
  · intro i stop h
    rw [moreCases] at h
    cases h
    exact .inl rfl
  · intro i c s h₁ h₂ stop h
    rw [moreCases] at h
    · cases h
      exact .inl rfl
    · exact h₁
    · exact h₂

theorem expression_error {s : List Char} {stop : Stop} (h : expression s = .error stop) :
    ∃ u t found, s = u ++ stop.rest ∧ Reads (u ++ t) (.parts found) [] := by
  unfold expression at h
  rcases bind_eq_error_iff.mp h with h | ⟨⟨found, r, hr⟩, hparts, h⟩
  · obtain ⟨c, hviable⟩ := viable_of_error.1 s stop h
    obtain ⟨u, t, hs, -, hread⟩ := hviable.viable
    obtain ⟨found, hfound⟩ := hread [] (by rintro c ⟨⟩)
    exact ⟨u, t ++ [], found, hs, hfound⟩
  · cases r with
    | nil => cases h
    | cons c r =>
        cases h
        obtain ⟨u, hs, hread, -⟩ := (reads_of_returns.1 s found (c :: r) ⟨hr, hparts⟩).local
        obtain ⟨-, hread⟩ := hread (List.cons_ne_nil c r)
        exact ⟨u, [], found, hs, hread [] (by rintro c ⟨⟩)⟩

end Reader

namespace Expression

/-- A syntax error is reported at a place of the pattern that offset, line and column agree on, and what
stands before it is the beginning of some pattern that can be read. -/
theorem read_error_viable {pattern : String} {e : SyntaxError} (h : read pattern = .error e) :
    ∃ before after, pattern = before ++ after ∧ e.position.IsAfter before ∧
      e.position.offset ≤ pattern.utf8ByteSize ∧ String.Pos.Raw.IsValid pattern ⟨e.position.offset⟩ ∧
      ∃ completion found, read (before ++ completion) = .ok found := by
  unfold read at h
  cases hread : Reader.expression pattern.toList with
  | ok found =>
      rw [hread] at h
      cases h
  | error stop =>
      rw [hread] at h
      cases h
      obtain ⟨u, t, found, hs, hfound⟩ := Reader.expression_error hread
      have hpattern : pattern = String.ofList u ++ String.ofList stop.rest := by
        rw [← String.ofList_append, ← hs, String.ofList_toList]
      have hposition : (stop.locate pattern.toList).position = .after u := by
        rw [Reader.Stop.locate, hs]
        simp
      have hafter := Position.isAfter_after u
      have hoffset : (stop.locate pattern.toList).position.offset = (String.ofList u).utf8ByteSize := by
        rw [hposition]
        exact hafter.offset_eq
      refine ⟨String.ofList u, String.ofList stop.rest, hpattern, hposition ▸ hafter, ?_, ?_,
        String.ofList t, Reader.orEmptyText found, ?_⟩
      · rw [hoffset, hpattern, String.utf8ByteSize_append]
        exact Nat.le_add_right _ _
      · rw [String.Pos.Raw.isValid_iff_exists_append]
        exact ⟨_, _, hpattern, by rw [hoffset]; rfl⟩
      · rw [← String.ofList_append, read_eq_ok_iff, String.toList_ofList]
        exact ⟨found, hfound, rfl⟩

theorem read_error_viable_nested :
    ∃ pattern e, pattern = "é\n#N\x7bon: <g: \x7bM:uc\x7d \\| #T(x\\" ∧ read pattern = .error e ∧
      e.position = ⟨29, 2, 27⟩ ∧
      ∃ before after, pattern = before ++ after ∧ e.position.IsAfter before ∧
        e.position.offset ≤ pattern.utf8ByteSize ∧ String.Pos.Raw.IsValid pattern ⟨e.position.offset⟩ ∧
        ∃ completion found, read (before ++ completion) = .ok found := by
  have hcheck : (match read "é\n#N\x7bon: <g: \x7bM:uc\x7d \\| #T(x\\" with
      | .error e => decide (e.position = ⟨29, 2, 27⟩)
      | .ok _ => false) = true := by
    decide +kernel
  cases h : read "é\n#N\x7bon: <g: \x7bM:uc\x7d \\| #T(x\\" with
  | ok found =>
      rw [h] at hcheck
      cases hcheck
  | error e =>
      rw [h] at hcheck
      exact ⟨_, e, rfl, h, of_decide_eq_true hcheck, read_error_viable h⟩

end Expression

end Phrasebook
