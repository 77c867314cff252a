import Phrasebook.Proofs.Pattern.ReadBack

namespace Phrasebook

namespace Reader

theorem reference_readsBack {ref : Reference} (h : (Part.reference ref).Trimmed) :
    PartReadsBack (.reference ref) := by
  intro place first r r' raw hraw
  refine ⟨.reference ref, ?_, rfl, ?_⟩
  · rw [Printer.part, Printer.reference]
    simp only [List.cons_append, List.append_assoc, List.nil_append]
    exact .reference (readsReference_printed ref r) hraw
  · rw [Part.normal, h]
    rfl

theorem group_readsBack {name : String} {body : Option Expression} (h : (Part.group name body).Trimmed)
    (hshaped : (Part.group name body).Shaped) (hbody : ∀ b ∈ body, ReadsBack b) :
    PartReadsBack (.group name body) := by
  have hname : Spells nameStops (Printer.escaped Printer.nameMarks name) name.toList :=
    spells_escaped (by decide) (by decide) name
  have htrim : Text.trimmed name = name := h
  intro place first r r' raw hraw
  cases body with
  | none =>
      refine ⟨.group name none, ?_, rfl, by rw [Part.normal, htrim]; rfl⟩
      have hread := hname.readText_stop (c := '>') (by decide) (by decide) r
      rw [Printer.part, Printer.groupBody]
      simpa using Reads.group hread (.noBody (by simp)) hraw
  | some b =>
      obtain ⟨found, hfound, hsame⟩ := (hbody b rfl).quoted (hshaped b rfl) .plain (w := [' '])
        (u := []) (r := '>' :: r) (by decide) (by rintro c ⟨⟩) (ends_cons (by decide) r)
      refine ⟨.group name (some (orEmptyText found)), ?_, rfl, ?_⟩
      · rw [Printer.part, Printer.groupBody]
        have hread := hname.readText_stop (c := ':') (by decide) (by decide)
          ([' '] ++ (Printer.quoted b (Printer.parts .plain true b) ++ ([] ++ '>' :: r)))
        simpa using Reads.group hread (.someBody hfound) hraw
      · rw [Part.normal, htrim]
        exact congrArg (fun b => Part.group name (some b)) hsame

theorem parts_eq_nil_iff {e : Expression} (hshaped : ∀ p ∈ e, p.Shaped) (place : Printer.Place) (first : Bool) :
    Printer.parts place first e = [] ↔ ∀ p ∈ e, p.isEmptyText = true := by
  induction e generalizing first with
  | nil => exact ⟨by rintro - p ⟨⟩, fun _ => rfl⟩
  | cons p e ih =>
      rw [Printer.parts, List.append_eq_nil_iff, List.forall_mem_cons,
        ih (fun q hq => hshaped q (List.mem_cons_of_mem p hq)) false]
      refine and_congr_left fun _ => ?_
      cases hp : p.isText with
      | true =>
          obtain ⟨s, rfl⟩ : ∃ s, p = .text s := by cases p <;> first | exact ⟨_, rfl⟩ | cases hp
          have hs : Spells [] (Printer.text place first s) s.toList :=
            spells_text place first (by rintro c ⟨⟩) s
          rw [Printer.part, ← hs.eq_nil_iff, Part.isEmptyText_eq_true_iff]
          simp
      | false =>
          obtain ⟨c, u, hu, -⟩ := begins_part place first hp (hshaped p List.mem_cons_self) []
          rw [List.append_nil] at hu
          rw [hu, Part.isEmptyText_of_not_isText hp]
          simp

theorem quoted_eq_nil_iff {e : Expression} (hsep : Expression.Separated e) (hshaped : ∀ p ∈ e, p.Shaped)
    (place : Printer.Place) :
    Printer.quoted e (Printer.parts place true e) = [] ↔ e.reread = [] := by
  have hparts := parts_eq_nil_iff hshaped place true
  rw [tidyParts_eq_nil_iff, ← hparts]
  unfold Printer.quoted
  split
  next hedge =>
    refine ⟨fun h => (List.cons_ne_nil _ _ h).elim, fun h => ?_⟩
    have hatoms : Expression.atoms e = [] := by
      rw [Expression.atoms, List.flatMap_eq_nil_iff]
      intro p hp
      rw [Part.isEmptyText_eq_true_iff.mp (hparts.mp h p hp)]
      rfl
    rw [isEdge_firstChar? hsep, isEdge_lastChar? hsep, hatoms] at hedge
    exact (Bool.false_ne_true hedge).elim
  next => exact Iff.rfl

theorem tidyCases_normalCases (cs : List Case) :
    tidyCases id (fun _ cases => cases) (normalCases cs) = cs.map Case.restored := by
  rw [normalCases_eq_map, tidyCases_eq_map, List.map_map]
  refine List.map_congr_left fun c _ => ?_
  rw [Function.comp_apply, Case.restored, Option.map_id, id]

theorem caseBranch_eq_nil_iff {c : Case} (hc : c.Shaped) (hshaped : ∀ p ∈ c.body, p.Shaped) :
    Printer.caseBranch c = [] ↔ c.reread = ⟨none, []⟩ := by
  obtain ⟨_ | spelling, body⟩ := c
  · rw [Printer.caseBranch]
    dsimp only
    rw [quoted_eq_nil_iff hc.separated hshaped]
    simp [Case.reread]
  · simp [Printer.caseBranch, Case.reread]

/-- Nothing is printed for the cases only where an empty case stands alone. -/
theorem map_caseBranch_eq_lone_iff {cases : List Case}
    (h : ∀ c ∈ cases, c.Shaped ∧ ∀ p ∈ c.body, p.Shaped) :
    cases.map Printer.caseBranch = [[]] ↔ cases.map Case.reread = [⟨none, []⟩] := by
  rw [List.map_eq_singleton_iff, List.map_eq_singleton_iff]
  refine exists_congr fun c => and_congr_right ?_
  rintro rfl
  obtain ⟨hc, hshaped⟩ := h c List.mem_cons_self
  exact caseBranch_eq_nil_iff hc hshaped

theorem withoutLoneCase_of_ne {nullCase : Option NullCase} {cases : List Case}
    (h : nullCase = none → cases ≠ [⟨none, []⟩]) : withoutLoneCase nullCase cases = cases := by
  unfold withoutLoneCase
  split
  · exact (h rfl rfl).elim
  · rfl

theorem switch_readsBack {subject : Reference} {template : Option String} {cases : List Case}
    {nullCase : Option NullCase} (htrim : (Part.switch subject template cases nullCase).Trimmed)
    (hshaped : (Part.switch subject template cases nullCase).Shaped)
    (hcases : ∀ c ∈ cases, CaseReadsBack c)
    (hnull : ∀ n ∈ nullCase, (∀ p ∈ n.body, p.Shaped) ∧ ReadsBack n.body) :
    PartReadsBack (.switch subject template cases nullCase) := by
  intro place first r r' raw hraw
  have hreread : tidyCases (Expression.mapFirstText Text.trimStart) withoutLoneCase cases =
      cases.map Case.reread := tidyCases_eq_map cases
  suffices h : ∃ cs n, Reads (Printer.branches (Printer.withNullCase (Printer.caseBranches cases)
      (Printer.nullBranch nullCase)) ++ '}' :: r) (.cases 0 cs n) r ∧
      cs.map Case.restored = withoutLoneCase
        (tidyNullCase (Expression.mapFirstText Text.trimStart) withoutLoneCase nullCase)
        (cases.map Case.reread) ∧
      tidyNullCase id (fun _ cases => cases) (normalNullCase n) =
        tidyNullCase (Expression.mapFirstText Text.trimStart) withoutLoneCase nullCase by
    obtain ⟨cs, n, hread, hcs, hn⟩ := h
    refine ⟨.switch subject template cs n, ?_, rfl, ?_⟩
    · rw [Printer.part]
      simp only [List.cons_append, List.append_assoc, List.nil_append]
      exact .switch (readsHead_printed subject hshaped.1 template _) hread hraw
    · rw [Part.normal, htrim.1, htrim.2]
      simp only [Part.compact, Part.reread, Part.tidy]
      rw [hreread, tidyCases_normalCases, hcs, hn]
  rw [Printer.caseBranches_eq_map, Printer.nullBranch_eq_map]
  cases nullCase with
  | some n =>
      obtain ⟨hparts, hbody⟩ := hnull n rfl
      have hn := hshaped.2.2 n rfl
      obtain ⟨cs, found, hread, hcs, hsame⟩ := reads_branches_nullCase hcases hn.separated hparts hbody
        hn.position_le (w := []) (by rintro c ⟨⟩) 0 r
      rw [Nat.zero_add] at hread
      obtain ⟨position, body⟩ := n
      refine ⟨cs, _, hread, ?_, congrArg (fun body => some (NullCase.mk position body)) hsame⟩
      rw [hcs, withoutLoneCase_of_ne]
      rintro ⟨⟩
  | none =>
      rw [Option.map_none, Printer.withNullCase]
      cases hc : cases with
      | nil => exact ⟨[], none, .noCases, rfl, rfl⟩
      | cons c cs =>
          rw [← hc]
          have hiff := map_caseBranch_eq_lone_iff fun c hc =>
            ⟨(hcases c hc).shaped, (hcases c hc).parts_shaped⟩
          by_cases hlone : cases.map Printer.caseBranch = [[]]
          · refine ⟨[], none, ?_, ?_, rfl⟩
            · rw [hlone]
              exact .noCases
            · rw [hiff.mp hlone]
              rfl
          · obtain ⟨cs', hread, hsame⟩ := reads_caseBranches hcases (by rw [hc]; exact List.cons_ne_nil c cs)
              (w := []) (by rintro c ⟨⟩) (.inr hlone) 0 r
            refine ⟨cs', none, hread, ?_, rfl⟩
            rw [hsame, withoutLoneCase_of_ne]
            exact fun _ hreread => hlone (hiff.mpr hreread)

theorem readsBack {e : Expression} (h : e.Regular) (hmark : ∀ p, e.Contains p → p.NoNullMark) :
    ReadsBack e := by
  induction e using Expression.induction with
  | step e ih =>
      have hbodies (p : Part) (hp : p ∈ e) (b : Expression) (hb : b ∈ p.bodies) :
          (∀ q ∈ b, q.Shaped) ∧ ReadsBack b := by
        have hregular := h.body hp hb
        exact ⟨fun q hq => hregular.shaped q (.here hq),
          ih p hp b hb hregular fun q hq => hmark q (.inside hp hb hq)⟩
      refine readsBack_of_parts (fun p hp => h.shaped p (.here hp)) fun p hp htext => ?_
      have hshaped := h.shaped p (.here hp)
      have htrim := h.trimmed p (.here hp)
      cases p with
      | text => cases htext
      | custom => exact hshaped.elim
      | reference ref => exact reference_readsBack htrim
      | group name body =>
          exact group_readsBack htrim hshaped fun b hb => (hbodies _ hp b (Part.mem_bodies_group.mpr hb)).2
      | switch subject template cases nullCase =>
          refine switch_readsBack htrim hshaped (fun c hc => ?_) fun n hn =>
            hbodies _ hp n.body (Part.mem_bodies_switch.mpr (.inr ⟨n, hn, rfl⟩))
          have hbody := hbodies _ hp c.body (Part.mem_bodies_switch.mpr (.inl ⟨c, hc, rfl⟩))
          exact ⟨hshaped.2.1 c hc, hbody.1, hbody.2,
            fun s hs => hmark _ (.here hp) s (Part.mem_conditions_switch.mpr ⟨c, hc, hs⟩)⟩

end Reader

namespace Expression

theorem Regular.parse_print {e : Expression} (h : e.Regular)
    (hmark : ∀ p, e.Contains p → p.NoNullMark) :
    ∃ e', parse e.print = .ok e' ∧ e'.compact = e.reread := by
  obtain ⟨found, hread, ha⟩ := Reader.readsBack h hmark .plain true (s := []) (r := [])
    .nil .nil (by rintro c ⟨⟩)
  rw [List.nil_append, List.append_nil, List.append_nil] at hread
  refine ⟨normal found, parse_eq_ok_iff.mpr ⟨found, ?_, rfl⟩, ?_⟩
  · rw [print, String.toList_ofList]
    exact hread
  · refine tidyParts_congr hread.separated.normal h.separated ?_
    rw [normal, normalParts_eq_map, atoms_orEmptyText, ha]
    simp

theorem eq_ofText_of_compact {e : Expression} (hsep : Separated e) (hne : e ≠ [])
    (h : e.compact = []) : e = ofText "" := by
  rw [tidyParts_eq_nil_iff] at h
  cases e with
  | nil => exact (hne rfl).elim
  | cons p e =>
      have hp := Part.isEmptyText_eq_true_iff.mp (h p List.mem_cons_self)
      subst hp
      cases e with
      | nil => rfl
      | cons q e =>
          have hq := h q (List.mem_cons_of_mem _ List.mem_cons_self)
          rw [Part.isEmptyText_of_not_isText (hsep.head rfl)] at hq
          cases hq

/-- Nothing but empty texts is lost if no condition begins with white space and no switch has an
empty case alone. -/
theorem Regular.reread_eq_compact {e : Expression} (h : e.Regular)
    (hlone : ∀ p, e.Contains p → p.isLoneEmptyCase = false)
    (hblank : ∀ p, e.Contains p → ∀ s ∈ p.conditions, ∀ c ∈ s.toList.head?, Text.isBlank c = false) :
    e.reread = e.compact := by
  induction e using induction with
  | step e ih =>
      rw [reread, compact, tidyParts_eq_filter, tidyParts_eq_filter]
      congr 1
      refine List.map_congr_left fun p hp => ?_
      have hbodies (b : Expression) (hb : b ∈ p.bodies) : b.reread = b.compact :=
        ih p hp b hb (h.body hp hb) (fun q hq => hlone q (.inside hp hb hq))
          fun q hq => hblank q (.inside hp hb hq)
      cases p with
      | text | reference | custom => rfl
      | group name body =>
          cases body with
          | none => rfl
          | some b => exact congrArg (fun b => Part.group name (some b)) (hbodies b (by simp [Part.bodies]))
      | switch subject template cases nullCase =>
          have hshaped := h.shaped _ (.here hp)
          have hnull : tidyNullCase (mapFirstText Text.trimStart) withoutLoneCase nullCase =
              tidyNullCase id (fun _ cases => cases) nullCase := by
            rcases nullCase with _ | ⟨position, body⟩
            · rfl
            · exact congrArg (fun b => some (NullCase.mk position b)) (hbodies body (by simp [Part.bodies]))
          have hcases : tidyCases (mapFirstText Text.trimStart) withoutLoneCase cases =
              tidyCases id (fun _ cases => cases) cases := by
            rw [tidyCases_eq_map, tidyCases_eq_map]
            refine List.map_congr_left fun c hc => ?_
            have hbody := hbodies c.body (Part.mem_bodies_switch.mpr (.inl ⟨c, hc, rfl⟩))
            have hcondition : c.condition.map (mapFirstText Text.trimStart) = c.condition.map id := by
              cases hcond : c.condition with
              | none => rfl
              | some spelling =>
                  obtain ⟨s, rfl⟩ := (hshaped.2.1 c hc).spelling spelling hcond
                  have hs := hblank _ (.here hp) s (Part.mem_conditions_switch.mpr ⟨c, hc, hcond⟩)
                  rw [Option.map_some, ofText, mapFirstText, Text.trimStart_of_head? hs, String.ofList_toList]
                  rfl
            rw [hcondition]
            exact congrArg (Case.mk _) hbody
          simp only [Part.tidy]
          rw [hcases, hnull, Reader.withoutLoneCase_of_ne]
          intro hnone hcs
          rw [tidyCases_eq_map] at hcs
          obtain ⟨c, rfl, hc⟩ := List.map_eq_singleton_iff.mp hcs
          obtain ⟨condition, body⟩ := c
          rw [Case.mk.injEq, Option.map_eq_none_iff] at hc
          have hcase := hshaped.2.1 _ List.mem_cons_self
          have hbody := eq_ofText_of_compact hcase.separated hcase.nonempty hc.2
          rw [tidyNullCase_eq_map, Option.map_eq_none_iff] at hnone
          obtain ⟨rfl, -⟩ := hc
          dsimp only at hbody
          rw [hbody, hnone] at hp
          exact Bool.false_ne_true (hlone _ (.here hp)).symm

theorem parse_of_mem_toOption {pattern : String} {t : Expression} (h : t ∈ (parse pattern).toOption) :
    parse pattern = .ok t := by
  cases hp : parse pattern with
  | error e =>
      rw [hp] at h
      cases h
  | ok e =>
      rw [hp] at h
      cases h
      rfl

/-- The printed form of a parsed pattern parses to the same tree up to empty texts, unless a
condition begins with white space or a question mark or a switch has an empty case alone. -/
theorem parse_print_compact {pattern : String} {t : Expression} (h : parse pattern = .ok t)
    (hlone : ∀ p, t.Contains p → p.isLoneEmptyCase = false)
    (hconditions : ∀ p, t.Contains p → ∀ s ∈ p.conditions, ∀ c ∈ s.toList.head?,
      Text.isBlank c = false ∧ c ≠ '?') :
    ∃ t', parse t.print = .ok t' ∧ t'.compact = t.compact := by
  have hregular := parse_regular h
  have hblank (p : Part) (hp : t.Contains p) (s : String) (hs : s ∈ p.conditions) :
      ∀ c ∈ s.toList.head?, Text.isBlank c = false :=
    fun c hc => (hconditions p hp s hs c hc).1
  have hmark (p : Part) (hp : t.Contains p) : p.NoNullMark := by
    intro s hs hnull
    rw [Text.trimStart_of_head? (hblank p hp s hs)] at hnull
    exact (hconditions p hp s hs '?' hnull).2 rfl
  obtain ⟨t', hparse, hsame⟩ := hregular.parse_print hmark
  exact ⟨t', hparse, hsame.trans (hregular.reread_eq_compact hlone hblank)⟩

theorem parse_print_compact_nested :
    ∃ t, parse "#N\x7b? \"\" | 1: \x7bname:x\x7d | \\?<b> #M\x7bc\\|d: \"  \"\x7d\x7d" = .ok t ∧
      ∃ t', parse t.print = .ok t' ∧ t'.compact = t.compact := by
  have hcheck : ∃ t ∈ (parse "#N\x7b? \"\" | 1: \x7bname:x\x7d | \\?<b> #M\x7bc\\|d: \"  \"\x7d\x7d").toOption,
      (∀ p, t.Contains p → p.isLoneEmptyCase = false) ∧
        ∀ p, t.Contains p → ∀ s ∈ p.conditions, ∀ c ∈ s.toList.head?, Text.isBlank c = false ∧ c ≠ '?' := by
    decide +kernel
  obtain ⟨t, ht, hlone, hconditions⟩ := hcheck
  have hparse := parse_of_mem_toOption ht
  exact ⟨t, hparse, parse_print_compact hparse hlone hconditions⟩

end Expression

end Phrasebook
