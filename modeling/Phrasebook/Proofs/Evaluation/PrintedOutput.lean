import Phrasebook.Proofs.Dialect.Resolution
import Phrasebook.Proofs.Evaluation.SameOutput
import Phrasebook.Proofs.Pattern.RoundTrip

namespace Phrasebook

open Run Render

namespace Dialect

variable {d : Dialect} {cs cs' : List BoundCase}

theorem sameCase_openCasesLast (h : List.Forall₂ SameCase cs cs') :
    List.Forall₂ SameCase (openCasesLast cs) (openCasesLast cs') := by
  refine List.rel_append (List.rel_filter ?_ h) (List.rel_filter ?_ h)
  · intro c c' hc
    dsimp only
    rw [hc.isOpen]
  · intro c c' hc
    dsimp only
    rw [hc.isOpen]

theorem alike_numberCases (h : List.Forall₂ SameCase cs cs') (template : String) (last number : Nat) :
    Alike (List.Forall₂ SameCase) (d.numberCases template last number cs)
      (d.numberCases template last number cs') := by
  induction h generalizing number with
  | nil => exact .nil
  | @cons c c' cs cs' hc _ ih =>
      rw [numberCases, numberCases, hc.isOpen]
      split
      · have hrest (b b' : BoundCase) (hb : SameCase b b') : Alike (List.Forall₂ SameCase)
            (do return b :: (← d.numberCases template last (number + 1) cs))
            (do return b' :: (← d.numberCases template last (number + 1) cs')) :=
          (ih _).bind fun bs bs' hbs => List.Forall₂.cons hb hbs
        dsimp only
        split
        · exact hrest _ _ ⟨rfl, rfl, hc.body⟩
        · exact (Alike.same _).bind fun condition _ heq => hrest _ _ ⟨rfl, heq, hc.body⟩
      · exact (ih _).bind fun bs bs' hbs => List.Forall₂.cons hc hbs

theorem alike_arrangeCases (h : List.Forall₂ SameCase cs cs') (template : Option String) :
    Alike (List.Forall₂ SameCase) (d.arrangeCases template cs) (d.arrangeCases template cs') := by
  cases template with
  | none => exact sameCase_openCasesLast h
  | some template =>
      have hopen : List.Forall₂ SameCase (cs.filter fun c => c.isOpen) (cs'.filter fun c => c.isOpen) := by
        refine List.rel_filter ?_ h
        intro c c' hc
        dsimp only
        rw [hc.isOpen]
      unfold arrangeCases
      dsimp only
      rw [hopen.length_eq]
      exact (alike_numberCases h template _ 1).map fun _ _ => sameCase_openCasesLast

theorem alike_bindCases {cases cases' : List Case}
    (h : List.Forall₂ (fun c c' => c.condition.isNone = c'.condition.isNone ∧
      Alike Eq (d.condition .switchCase (caseText c)) (d.condition .switchCase (caseText c')) ∧
      Alike SameOutput (d.bind c.body) (d.bind c'.body)) cases cases') :
    Alike (List.Forall₂ SameCase) (d.bindCases cases) (d.bindCases cases') := by
  induction h with
  | nil => exact .nil
  | @cons c c' rest rest' hc _ ih =>
      obtain ⟨hopen, hcondition, hbody⟩ := hc
      rw [bindCases_cons, bindCases_cons]
      refine hcondition.bind fun b b' hb => hbody.bind fun body body' hbody => ih.bind fun bs bs' hbs => ?_
      exact List.Forall₂.cons ⟨hopen, hb, hbody⟩ hbs

theorem alike_bindSwitch (subject : Reference) (template : Option String) {cases cases' : List Case}
    {nullCase nullCase' : Option NullCase}
    (hcases : Alike (List.Forall₂ SameCase) (d.bindCases cases) (d.bindCases cases'))
    (hnull : Alike (Option.Rel SameOutput) (d.bindNullCase nullCase) (d.bindNullCase nullCase')) :
    Alike SamePart (d.bindPart (.switch subject template cases nullCase))
      (d.bindPart (.switch subject template cases' nullCase')) := by
  rw [bindPart, bindPart]
  refine (Alike.same _).bind fun evaluator _ he => (Alike.same _).bind fun formatter _ hf =>
    hcases.bind fun cs cs' hcs => hnull.bind fun n n' hn =>
      (alike_arrangeCases hcs template).bind fun ds ds' hds => ?_
  subst he hf
  exact samePart_switch (fun deeper hdeeper passes passes' => agree_firstCase_of_sameCase hds hdeeper) hn

theorem alike_bindSwitch_lone {subject : Reference} {template : Option String} :
    Alike SamePart (standard.bindPart (.switch subject template [⟨none, []⟩] none))
      (standard.bindPart (.switch subject template [] none)) := by
  have hcases : standard.bindCases [⟨none, []⟩] = .ok [⟨true, "", .always, []⟩] := by
    rw [bindCases_cons]
    change standard.condition .switchCase "" >>= _ = _
    rw [standard_condition_empty]
    rfl
  have hlone : standard.arrangeCases template [⟨true, "", .always, []⟩] = .ok [⟨true, "", .always, []⟩] := by
    cases template <;> rfl
  have hnone : standard.arrangeCases template [] = .ok [] := by
    cases template <;> rfl
  rw [bindPart, bindPart, hcases]
  refine (Alike.same _).bind fun evaluator _ he => (Alike.same _).bind fun formatter _ hf => ?_
  subst he hf
  change Alike SamePart (standard.arrangeCases template _ >>= _) (standard.arrangeCases template _ >>= _)
  rw [hlone, hnone]
  refine samePart_switch (fun deeper hdeeper passes passes' hpasses => ?_) .none
  have hempty : firstCase deeper passes [⟨true, "", .always, []⟩] = pure "" := by
    rw [firstCase, hpasses.1]
    rfl
  rw [hempty]
  exact ensures_pure trivial

section

variable {f : Expression → Expression} {g : Option NullCase → List Case → List Case}

theorem alike_bindBody_tidy {body : Option Expression}
    (h : ∀ b ∈ body, Alike SameOutput (d.bind b) (d.bind (tidyParts f g b))) :
    Alike (Option.Rel SameOutput) (d.bindBody body) (d.bindBody (tidyBody f g body)) := by
  cases body with
  | none => exact .none
  | some b => exact (h b rfl).map fun _ _ => .some

theorem alike_bindNullCase_tidy {nullCase : Option NullCase}
    (h : ∀ n ∈ nullCase, Alike SameOutput (d.bind n.body) (d.bind (tidyParts f g n.body))) :
    Alike (Option.Rel SameOutput) (d.bindNullCase nullCase) (d.bindNullCase (tidyNullCase f g nullCase)) := by
  rcases nullCase with _ | ⟨position, b⟩
  · exact .none
  · exact (h ⟨position, b⟩ rfl).map fun _ _ => .some

theorem alike_bindCases_tidy
    (hf : ∀ s, Alike Eq (d.condition .switchCase s)
      (d.condition .switchCase (spelling (f (Expression.ofText s)))))
    {cases : List Case} (hshaped : ∀ c ∈ cases, c.Shaped)
    (h : ∀ c ∈ cases, Alike SameOutput (d.bind c.body) (d.bind (tidyParts f g c.body))) :
    Alike (List.Forall₂ SameCase) (d.bindCases cases) (d.bindCases (tidyCases f g cases)) := by
  rw [tidyCases_eq_map]
  refine alike_bindCases (List.forall₂_map_right_iff.mpr (List.forall₂_same.mpr fun c hc => ?_))
  refine ⟨by rw [Option.isNone_map], ?_, h c hc⟩
  obtain ⟨condition, body⟩ := c
  cases condition with
  | none => exact Alike.same _
  | some e =>
      obtain ⟨s, rfl⟩ := (hshaped _ hc).spelling e rfl
      exact hf s

theorem alike_bindPart_tidy
    (hf : ∀ s, Alike Eq (standard.condition .switchCase s)
      (standard.condition .switchCase (spelling (f (Expression.ofText s)))))
    (hg : ∀ n cases, g n cases = cases ∨ n = none ∧ cases = [⟨none, []⟩] ∧ g n cases = [])
    {p : Part} (hshaped : p.Shaped)
    (h : ∀ b ∈ p.bodies, Alike SameOutput (standard.bind b) (standard.bind (tidyParts f g b))) :
    Alike SamePart (standard.bindPart p) (standard.bindPart (p.tidy f g)) := by
  cases p with
  | text s => exact samePart_text s
  | reference ref =>
      refine Alike.refl_of fun q hq => ?_
      obtain ⟨evaluator, formatter, -, -, rfl⟩ := bindPart_reference_eq_ok_iff.mp hq
      exact samePart_parameter ref evaluator formatter
  | custom node => exact hshaped.elim
  | group name body =>
      have hbody := alike_bindBody_tidy fun b hb => h b (Part.mem_bodies_group.mpr hb)
      rw [Part.tidy, bindPart, bindPart]
      refine (Alike.same _).bind fun evaluator _ he => hbody.bind fun b b' hb => ?_
      subst he
      exact samePart_group hb
  | switch subject template cases nullCase =>
      have hcases := alike_bindCases_tidy hf hshaped.2.1 fun c hc =>
        h c.body (Part.mem_bodies_switch.mpr (.inl ⟨c, hc, rfl⟩))
      have hnull := alike_bindNullCase_tidy fun n hn =>
        h n.body (Part.mem_bodies_switch.mpr (.inr ⟨n, hn, rfl⟩))
      have htidy := alike_bindSwitch subject template hcases hnull
      rw [Part.tidy]
      rcases hg (tidyNullCase f g nullCase) (tidyCases f g cases) with hsame | ⟨hnone, hlone, hdropped⟩
      · rw [hsame]
        exact htidy
      · rw [hdropped]
        rw [hnone, hlone] at htidy
        rw [hnone]
        exact htidy.trans alike_bindSwitch_lone fun _ _ _ => SamePart.trans

/-- Deleting empty texts changes no output, nor does what else leaves every condition and what is
written for it as they are. -/
theorem alike_bind_tidyParts
    (hf : ∀ s, Alike Eq (standard.condition .switchCase s)
      (standard.condition .switchCase (spelling (f (Expression.ofText s)))))
    (hg : ∀ n cases, g n cases = cases ∨ n = none ∧ cases = [⟨none, []⟩] ∧ g n cases = [])
    {e : Expression} (hshaped : ∀ p, e.Contains p → p.Shaped) :
    Alike SameOutput (standard.bind e) (standard.bind (tidyParts f g e)) := by
  induction e using Expression.induction with
  | step e ih =>
      have hparts : ∀ p ∈ e, Alike SamePart (standard.bindPart p) (standard.bindPart (p.tidy f g)) :=
        fun p hp => alike_bindPart_tidy hf hg (hshaped p (.here hp)) fun b hb =>
          ih p hp b hb fun q hq => hshaped q (.inside hp hb hq)
      clear ih hshaped
      induction e with
      | nil => exact SameOutput.nil
      | cons p e ih =>
          have hrest := ih fun q hq => hparts q (List.mem_cons_of_mem p hq)
          rw [tidyParts, Dialect.bind]
          split
          next hempty =>
            rw [Part.isEmptyText_eq_true_iff.mp hempty, ← bind_pure (standard.bind (tidyParts f g e))]
            exact hrest.bind fun b b' hb => hb.dropEmptyText
          next =>
            rw [Dialect.bind]
            exact (hparts p List.mem_cons_self).bind fun q q' hq =>
              hrest.bind fun b b' hb => SameOutput.cons hq hb

theorem condition_trimStart (s : String) :
    Alike Eq (standard.condition .switchCase s) (standard.condition .switchCase
      (spelling (Expression.mapFirstText Text.trimStart (Expression.ofText s)))) := by
  have hhost : ∀ f, ConditionRule.host f ∉ standard.conditions := by
    intro f hf
    simp [standard, withConditions] at hf
  refine Alike.of_iff fun c => ?_
  have hspelling : spelling (Expression.mapFirstText Text.trimStart (Expression.ofText s)) =
      String.ofList (Text.trimStart s.toList) := rfl
  rw [hspelling, condition, condition, String.toList_ofList]
  exact conditionFrom_trimStart hhost .switchCase s.toList

theorem alike_bind_compact {e : Expression} (h : e.Regular) :
    Alike SameOutput (standard.bind e) (standard.bind e.compact) :=
  alike_bind_tidyParts (fun _ => Alike.same _) (fun _ _ => .inl rfl) h.shaped

theorem alike_bind_reread {e : Expression} (h : e.Regular) :
    Alike SameOutput (standard.bind e) (standard.bind e.reread) := by
  refine alike_bind_tidyParts condition_trimStart (fun n cases => ?_) h.shaped
  unfold withoutLoneCase
  split
  · exact .inr ⟨rfl, rfl, rfl⟩
  · exact .inl rfl

theorem bind_print {e : Expression} (h : e.Regular) (hmark : ∀ p, e.Contains p → p.NoNullMark)
    {b : BoundExpression} (hb : standard.bind e = .ok b) :
    ∃ e' b', Expression.parse e.print = .ok e' ∧ standard.bind e' = .ok b' ∧ SameOutput b b' := by
  obtain ⟨e', hparse, hsame⟩ := h.parse_print hmark
  have hreread := alike_bind_reread h
  have hcompact := alike_bind_compact (Expression.parse_regular hparse)
  rw [hsame] at hcompact
  obtain ⟨b₁, hb₁, hsame₁⟩ := hreread.exists_ok hb
  obtain ⟨b', hb', hsame'⟩ := (hcompact.symm fun _ _ => SameOutput.symm).exists_ok hb₁
  exact ⟨e', b', hparse, hb', hsame₁.trans hsame'⟩

end

end Dialect

theorem SameOutput.renderWith {c d : Compiled} (h : SameOutput c.bound d.bound)
    (hencodes : c.encodes = d.encodes) (htransformer : c.transformer = d.transformer)
    {deeper : Deeper} (hdeeper : deeper.KeepsEncoder) :
    Agree Context.EncodesPlainly (fun _ => True) (c.renderWith deeper) (d.renderWith deeper) :=
  Render.agree_renderWith Render.encodesPlainly_invariant hencodes htransformer (h deeper hdeeper)
    (fun _ _ => .inl rfl) (fun _ _ h _ => h) fun _ _ _ _ => trivial

/-- The printed form of a compiled pattern compiles, and is evaluated to the same in every context
whose encoder is the identity or the one for HTML, unless a condition begins with a question mark. -/
theorem Compiled.evaluate_print {pattern : String} {c : Compiled}
    (hc : Dialect.standard.compile pattern = .ok c)
    (hmark : ∀ p, c.expression.Contains p → p.NoNullMark) :
    ∃ c', Dialect.standard.compile c.expression.print = .ok c' ∧
      ∀ ctx : Context, ctx.encoder = .identity ∨ ctx.encoder = .html → c'.evaluate ctx = c.evaluate ctx := by
  obtain ⟨e, b, he, hb, rfl⟩ := Dialect.standard_compile_eq_ok_iff.mp hc
  obtain ⟨e', b', he', hb', hsame⟩ := Dialect.bind_print (Expression.parse_regular he) hmark hb
  refine ⟨_, Dialect.standard_compile_eq_ok_iff.mpr ⟨e', b', he', hb', rfl⟩, fun ctx hctx => ?_⟩
  have hrender := SameOutput.renderWith (c := ⟨pattern, e, b, true, none⟩)
    (d := ⟨e.print, e', b', true, none⟩) hsame rfl rfl (keepsEncoder_level ctx.remaining)
  rw [evaluate_apply, evaluate_apply]
  exact (hrender ctx hctx).1.symm

theorem Compiled.evaluate_print_escaped :
    ∃ c, Dialect.standard.compile "#N\x7b  a\\|?: \\?\x7bM:uc\x7d | \x7d" = .ok c ∧
      ∃ c', Dialect.standard.compile c.expression.print = .ok c' ∧
        ∀ ctx : Context, ctx.encoder = .identity ∨ ctx.encoder = .html →
          c'.evaluate ctx = c.evaluate ctx := by
  have hcheck : ∃ e ∈ (Expression.parse "#N\x7b  a\\|?: \\?\x7bM:uc\x7d | \x7d").toOption,
      (∀ p, e.Contains p → Dialect.standard.Resolves p) ∧ ∀ p, e.Contains p → p.NoNullMark := by
    decide +kernel
  obtain ⟨e, he, hresolves, hmark⟩ := hcheck
  obtain ⟨c, hc, rfl⟩ := Dialect.exists_compile (Expression.parse_of_mem_toOption he) hresolves
  exact ⟨c, hc, c.evaluate_print hc hmark⟩

/-- A condition that an escaped question mark begins is printed without the escape. -/
theorem Compiled.print_not_compiled :
    ∃ c, Dialect.standard.compile "#N\x7b\\?a>b: x\x7d" = .ok c ∧
      ∀ c', Dialect.standard.compile c.expression.print ≠ .ok c' := by
  have hcheck : ∃ e ∈ (Expression.parse "#N\x7b\\?a>b: x\x7d").toOption,
      (∀ p, e.Contains p → Dialect.standard.Resolves p) ∧ (Expression.parse e.print).isOk = false := by
    decide +kernel
  obtain ⟨e, he, hresolves, hprint⟩ := hcheck
  obtain ⟨c, hc, rfl⟩ := Dialect.exists_compile (Expression.parse_of_mem_toOption he) hresolves
  refine ⟨c, hc, fun c' hc' => ?_⟩
  obtain ⟨e', b, he', -⟩ := Dialect.standard_compile_eq_ok_iff.mp hc'
  rw [he'] at hprint
  cases hprint

end Phrasebook
