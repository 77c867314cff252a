import Phrasebook.Proofs.Pattern.Locality
import Phrasebook.Proofs.Pattern.RoundTrip

namespace Phrasebook

namespace Expression

def joined : Expression → Expression
  | [] => []
  | .text s :: rest =>
    match joined rest with
    | .text t :: more => .text (s ++ t) :: more
    | more => if s = "" then more else .text s :: more
  | p :: rest => p :: joined rest

structure Tight (e : Expression) : Prop where
  separated : Separated e
  nonempty : ∀ p ∈ e, p.isEmptyText = false

section

variable {e e' : Expression}

theorem Tight.eq_of_atoms_eq (h : Tight e) (h' : Tight e') (ha : atoms e = atoms e') : e = e' := by
  have hfilter {e : Expression} (h : Tight e) : (e.filter fun p => !p.isEmptyText) = e :=
    List.filter_eq_self.mpr fun p hp => by rw [h.nonempty p hp]; rfl
  rw [← hfilter h, ← hfilter h', filter_eq_of_atoms_eq h.separated h'.separated ha]

theorem tight_joined (e : Expression) : Tight (joined e) := by
  fun_induction joined e with
  | case1 => exact ⟨List.isChain_nil, by rintro p ⟨⟩⟩
  | case2 s rest t more hrest ih =>
      rw [hrest] at ih
      refine ⟨ih.separated.congr rfl, List.forall_mem_cons.mpr ⟨?_, fun p hp => ?_⟩⟩
      · have ht := ih.nonempty _ List.mem_cons_self
        simp only [Part.isEmptyText, String.isEmpty_eq_false_iff] at ht ⊢
        simp [ht]
      · exact ih.nonempty p (List.mem_cons_of_mem _ hp)
  | case3 rest hmore ih => exact ih
  | case4 s rest hs hmore ih =>
      refine ⟨separated_cons ih.separated ?_, List.forall_mem_cons.mpr ⟨?_, ih.nonempty⟩⟩
      · rintro q hq ⟨-, htext⟩
        obtain ⟨l, hl⟩ := List.head?_eq_some_iff.mp hq
        cases q with
        | text t => exact hmore t l hl
        | _ => cases htext
      · simpa [Part.isEmptyText] using hs
  | case5 p rest hp ih =>
      have htext : p.isText = false := by
        cases p with
        | text s => exact (hp s rfl).elim
        | _ => rfl
      refine ⟨separated_cons ih.separated ?_, List.forall_mem_cons.mpr ⟨?_, ih.nonempty⟩⟩
      · rw [htext]
        rintro q - ⟨⟨⟩, -⟩
      · exact Part.isEmptyText_of_not_isText htext

theorem atoms_joined (e : Expression) : atoms (joined e) = atoms e := by
  fun_induction joined e with
  | case1 => rfl
  | case2 s rest t more hrest ih =>
      rw [hrest] at ih
      rw [atoms_cons, atoms_cons, ← ih, atoms_cons]
      simp [Part.atoms]
  | case3 rest hmore ih => exact ih
  | case4 s rest hs hmore ih => rw [atoms_cons, atoms_cons, ih]
  | case5 p rest hp ih => rw [atoms_cons, atoms_cons, ih]

theorem joined_congr (ha : atoms e = atoms e') : joined e = joined e' :=
  (tight_joined e).eq_of_atoms_eq (tight_joined e') (by rw [atoms_joined, atoms_joined, ha])

theorem Tight.joined_eq (h : Tight e) : joined e = e :=
  (tight_joined e).eq_of_atoms_eq h (atoms_joined e)

theorem atoms_normal (e : Expression) : atoms (normal e) = (atoms e).map (Sum.map id Part.normal) := by
  rw [normal, normalParts_eq_map, atoms_orEmptyText, atoms_map]
  intro p
  cases p with
  | text s => simp [Part.normal, Part.atoms]
  | _ => rfl

end

end Expression

def trailingBackslashes (s : List Char) : Nat :=
  (s.rtakeWhile (· = '\\')).length

/-- A text ends in a backslash with no character to escape if the number of those at its end is odd. -/
def EndsInEscape (pattern : String) : Prop :=
  trailingBackslashes pattern.toList % 2 = 1

instance (pattern : String) : Decidable (EndsInEscape pattern) :=
  inferInstanceAs (Decidable (_ = 1))

namespace Reader

open Expression (atoms)

theorem trailingBackslashes_cons (c : Char) (s : List Char) : trailingBackslashes (c :: s) =
    trailingBackslashes s + if trailingBackslashes s = s.length ∧ c = '\\' then 1 else 0 := by
  unfold trailingBackslashes List.rtakeWhile
  rw [List.reverse_cons, List.takeWhile_append]
  simp only [List.length_reverse]
  split
  next hall => by_cases hc : c = '\\' <;> simp [hc, hall]
  next hall => simp [hall]

theorem trailingBackslashes_le (s : List Char) : trailingBackslashes s ≤ s.length :=
  (List.rtakeWhile_suffix (· = '\\') s).length_le

theorem isWhole_of_even {s : List Char} (h : trailingBackslashes s % 2 ≠ 1) : IsWhole s := by
  fun_induction firstOf [] s with
  | case1 => exact isWhole_nil
  | case2 => exact (h rfl).elim
  | case3 c s ih =>
      obtain ⟨t, ht⟩ := ih (by
        rw [trailingBackslashes_cons, trailingBackslashes_cons] at h
        have := trailingBackslashes_le s
        grind)
      exact ⟨c :: t, .escaped ht⟩
  | case4 c s _ _ hc => cases hc
  | case5 c s hb₁ hb₂ _ ih =>
      have hb : c ≠ '\\' := ne_backslash hb₁ hb₂
      rw [trailingBackslashes_cons, if_neg fun hc => hb hc.2] at h
      exact (ih h).cons hb

section

variable {stops s t u v r : List Char} {c : Char} {f g : List Part}

theorem IsWhole.tail (hc : c ≠ '\\') (h : IsWhole (c :: s)) : IsWhole s := by
  obtain ⟨t, h⟩ := h
  cases h with
  | plain _ _ h => exact ⟨_, h⟩
  | escaped => exact (hc rfl).elim

theorem IsWhole.of_append (hv : IsWhole v) (h : IsWhole (v ++ r)) : IsWhole r := by
  obtain ⟨t, hv⟩ := hv
  induction hv with
  | nil => exact h
  | plain _ hb _ ih => exact ih (h.tail hb)
  | escaped _ ih =>
      obtain ⟨t, h⟩ := h
      cases h with
      | plain _ hb => exact (hb rfl).elim
      | escaped h => exact ih ⟨_, h⟩

theorem IsWhole.spells (h : IsWhole s) (ht : readText stops s = (t, [])) : Spells stops s t := by
  fun_induction readText stops s generalizing t with
  | case1 =>
      cases ht
      exact .nil
  | case2 =>
      obtain ⟨t, h⟩ := h
      cases h with
      | plain _ hb => exact (hb rfl).elim
  | case3 c s text r hr ih =>
      cases ht
      obtain ⟨t, h⟩ := h
      cases h with
      | plain _ hb => exact (hb rfl).elim
      | escaped h => exact .escaped (ih ⟨_, h⟩ hr)
  | case4 => cases ht
  | case5 c s hb₁ hb₂ hc text r hr ih =>
      have hb : c ≠ '\\' := ne_backslash hb₁ hb₂
      cases ht
      exact .plain hc hb (ih (h.tail hb) hr)

theorem Reads.append_text (hs : Spells textStops s u) (h : Reads t (.parts g) r) :
    ∃ found, Reads (s ++ t) (.parts found) r ∧ atoms found = Atom.chars u ++ atoms g := by
  by_cases hhead : ∀ d ∈ t.head?, d ∈ textStops
  · refine ⟨_, h.text_before hs hhead, ?_⟩
    rw [Expression.atoms_append, atoms_textParts]
  · cases h with
    | @text d t v w _ more hd hv hmore =>
        have hread : readText textStops (s ++ d :: t) = (u ++ v, w) := by rw [hs.readText_append, hv]
        refine ⟨.text (String.ofList (u ++ v)) :: more, ?_, ?_⟩
        · cases s with
          | nil => exact .text hd hread hmore
          | cons c s =>
              refine .text ?_ hread hmore
              cases hs with
              | plain hc => exact hc
              | escaped => decide
        · rw [Expression.atoms_cons, Expression.atoms_cons, Part.atoms, Part.atoms, String.toList_ofList,
            String.toList_ofList, List.map_append, List.append_assoc]
    | stop hc =>
        exact (hhead fun d hd => (ends_cons hc _).head?_mem d hd).elim
    | nil => exact (hhead (by rintro d ⟨⟩)).elim
    | _ => exact (hhead (by rintro d ⟨⟩; decide)).elim

theorem Leads.append {p : Part} (hb : c ≠ '\\') (hp : Leads c p s r) (hs : IsWhole (c :: s))
    (hmore : IsWhole r → ∃ found, Reads (r ++ t) (.parts found) [] ∧ atoms found = atoms f ++ atoms g) :
    ∃ found, Reads (c :: s ++ t) (.parts found) [] ∧ atoms found = atoms (p :: f) ++ atoms g := by
  obtain ⟨v, rfl, hv, hread⟩ := hp
  obtain ⟨found, hfound, ha⟩ := hmore (hv.of_append (hs.tail hb))
  refine ⟨p :: found, ?_, ?_⟩
  · rw [List.cons_append, List.append_assoc]
    exact hread hfound
  · rw [Expression.atoms_cons, ha, Expression.atoms_cons, List.append_assoc]

/-- What is read to the end of a text is read the same before any other text that is read to its end:
only the text at the end may become longer. -/
theorem Reads.append (h : Reads s (.parts f) []) (hs : IsWhole s) (h' : Reads t (.parts g) []) :
    ∃ found, Reads (s ++ t) (.parts found) [] ∧ atoms found = atoms f ++ atoms g := by
  generalize hphrase : Phrase.parts f = phrase at h
  generalize hrest : ([] : List Char) = rest at h
  induction h generalizing f with
  | nil =>
      cases hphrase
      exact ⟨g, h', rfl⟩
  | reference href _ ih =>
      cases hphrase
      subst hrest
      exact href.leads.append (by decide) hs fun hr => ih hr rfl rfl
  | switch hhead hcases _ _ ih =>
      cases hphrase
      subst hrest
      exact (hhead.leads hcases.local).append (by decide) hs fun hr => ih hr rfl rfl
  | group hname hbody _ _ ih =>
      cases hphrase
      subst hrest
      exact (leads_group hname hbody.local).append (by decide) hs fun hr => ih hr rfl rfl
  | stop => cases hrest
  | @text c s u r _ more hc hu hmore ih =>
      cases hphrase
      subst hrest
      cases r with
      | nil =>
          -- all other parts are closed by a mark, so that only a text can reach the end and go on behind it
          cases hmore
          obtain ⟨found, hfound, ha⟩ := Reads.append_text (hs.spells hu) h'
          refine ⟨found, hfound, ?_⟩
          rw [ha, Expression.atoms_cons, Part.atoms, String.toList_ofList, Expression.atoms_nil,
            List.append_nil]
      | cons d r =>
          obtain ⟨v, hv, hwhole, hread⟩ := readText_local (by decide) hu (List.cons_ne_nil d r)
          rw [hv] at hs ⊢
          obtain ⟨found, hfound, ha⟩ := ih (hwhole.of_append hs) rfl rfl
          have hu' := hread (d :: r ++ t) rfl
          refine ⟨.text (String.ofList u) :: found, ?_, ?_⟩
          · cases v with
            | nil =>
                cases hv
                exact (hc (mem_of_readText hu)).elim
            | cons e v =>
                cases hv
                rw [List.append_assoc]
                exact .text hc hu' hfound
          · rw [Expression.atoms_cons, ha, Expression.atoms_cons, List.append_assoc]
  | _ => cases hphrase

theorem Reads.tight (h : Reads s (.parts f) r) : Expression.Tight f := by
  refine ⟨h.separated, ?_⟩
  generalize hphrase : Phrase.parts f = phrase at h
  induction h generalizing f with
  | nil | stop =>
      cases hphrase
      rintro p ⟨⟩
  | reference _ _ ih | switch _ _ _ _ ih | group _ _ _ _ ih =>
      cases hphrase
      exact List.forall_mem_cons.mpr ⟨rfl, ih rfl⟩
  | @text c s t r r' more hc ht _ ih =>
      cases hphrase
      refine List.forall_mem_cons.mpr ⟨?_, ih rfl⟩
      have ht : t ≠ [] := by
        rintro rfl
        by_cases hb : c = '\\'
        · subst hb
          cases s <;> simp [readText] at ht
        · simp [readText_cons hc hb] at ht
      simpa [Part.isEmptyText] using ht
  | _ => cases hphrase

end

end Reader

namespace Expression

theorem Tight.map_normal {e : Expression} (h : Tight e) : Tight (e.map Part.normal) := by
  refine ⟨h.separated.congr ?_, List.forall_mem_map.mpr fun p hp => ?_⟩
  · rw [List.map_map]
    exact List.map_congr_left fun p _ => p.isText_normal
  · have := h.nonempty p hp
    cases p <;> exact this

/-- Patterns that are put together, the first of which does not end in a backslash that escapes, parse to
the parts of both. Only an empty pattern has a part that is an empty text. -/
theorem parse_append {pattern pattern' : String} {e e' : Expression} (h : parse pattern = .ok e)
    (h' : parse pattern' = .ok e') (hescape : ¬ EndsInEscape pattern) :
    ∃ t, parse (pattern ++ pattern') = .ok t ∧ joined t = joined (e ++ e') ∧
      (pattern ++ pattern' ≠ "" → t = joined (e ++ e')) := by
  obtain ⟨f, hf, rfl⟩ := parse_eq_ok_iff.mp h
  obtain ⟨g, hg, rfl⟩ := parse_eq_ok_iff.mp h'
  obtain ⟨found, hfound, ha⟩ := hf.append (Reader.isWhole_of_even hescape) hg
  have hatoms : atoms (normal found) = atoms (normal f ++ normal g) := by
    rw [atoms_normal, ha, atoms_append, atoms_normal, atoms_normal, List.map_append]
  rw [← String.toList_append] at hfound
  refine ⟨normal found, parse_eq_ok_iff.mpr ⟨found, hfound, rfl⟩, joined_congr hatoms, fun hne => ?_⟩
  rw [← joined_congr hatoms, Tight.joined_eq]
  cases found with
  | nil =>
      cases htext : (pattern ++ pattern').toList with
      | nil => exact (hne (String.toList_eq_nil_iff.mp htext)).elim
      | cons c s =>
          rw [htext] at hfound
          cases hfound
  | cons p found =>
      rw [normal, normalParts_eq_map]
      exact hfound.tight.map_normal

theorem parse_append_nested :
    ∃ e e', parse "a\\\\#N\x7b1: <b: \x7bk\x7d> | c\x7dd" = .ok e ∧ parse "e<f>\x7bg(1):h\x7d" = .ok e' ∧
      parse ("a\\\\#N\x7b1: <b: \x7bk\x7d> | c\x7dd" ++ "e<f>\x7bg(1):h\x7d") = .ok (joined (e ++ e')) := by
  have hcheck : (∃ e ∈ (parse "a\\\\#N\x7b1: <b: \x7bk\x7d> | c\x7dd").toOption, True) ∧
      (∃ e ∈ (parse "e<f>\x7bg(1):h\x7d").toOption, True) ∧
        ¬ EndsInEscape "a\\\\#N\x7b1: <b: \x7bk\x7d> | c\x7dd" := by
    decide +kernel
  obtain ⟨⟨e, he, -⟩, ⟨e', he', -⟩, hescape⟩ := hcheck
  have h := parse_of_mem_toOption he
  have h' := parse_of_mem_toOption he'
  obtain ⟨t, ht, -, hjoined⟩ := parse_append h h' hescape
  refine ⟨e, e', h, h', ?_⟩
  rw [ht, hjoined]
  decide

end Expression

end Phrasebook
