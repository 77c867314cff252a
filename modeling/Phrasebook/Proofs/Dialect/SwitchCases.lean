import Phrasebook.Proofs.Dialect.Resolution
import Phrasebook.Proofs.Dialect.Spellings

namespace Phrasebook

def Case.isOpen (c : Case) : Bool :=
  c.condition.isNone

namespace Dialect

variable {d : Dialect}

/-- What a case is bound to before the cases of its switch are arranged. -/
structure BindsCase (d : Dialect) (c : Case) (b : BoundCase) : Prop where
  isOpen : b.isOpen = c.isOpen
  spelling : b.spelling = caseText c
  condition : d.condition .switchCase (caseText c) = .ok b.condition
  body : d.bind c.body = .ok b.body

theorem rightUnique_bindsCase : Relator.RightUnique d.BindsCase := by
  rintro c ⟨isOpen, spelling, condition, body⟩ ⟨isOpen', spelling', condition', body'⟩
    ⟨rfl, rfl, hcondition, hbody⟩ ⟨rfl, rfl, hcondition', hbody'⟩
  cases hcondition.symm.trans hcondition'
  cases hbody.symm.trans hbody'
  rfl

theorem bindCases_eq_ok_iff {cases : List Case} {cs : List BoundCase} :
    d.bindCases cases = .ok cs ↔ List.Forall₂ d.BindsCase cases cs := by
  induction cases generalizing cs with
  | nil =>
      rw [List.forall₂_nil_left_iff]
      exact ⟨fun h => by cases h; rfl, fun h => by rw [h]; rfl⟩
  | cons c cases ih =>
      rw [bindCases_cons_eq_ok_iff, List.forall₂_cons_left_iff]
      constructor
      · rintro ⟨condition, body, cs', hcondition, hbody, hcs', rfl⟩
        exact ⟨_, cs', ⟨rfl, rfl, hcondition, hbody⟩, ih.mp hcs', rfl⟩
      · rintro ⟨⟨_, _, condition, body⟩, cs', ⟨rfl, rfl, hcondition, hbody⟩, hcs', rfl⟩
        exact ⟨condition, body, cs', hcondition, hbody, ih.mpr hcs', rfl⟩

theorem exists_bindCases_of_subset {cases cases' : List Case} {cs : List BoundCase}
    (h : List.Forall₂ d.BindsCase cases cs) (hsub : cases' ⊆ cases) :
    ∃ cs', List.Forall₂ d.BindsCase cases' cs' := by
  induction cases' with
  | nil => exact ⟨[], .nil⟩
  | cons c cases' ih =>
      rw [List.cons_subset] at hsub
      obtain ⟨cs', hcs'⟩ := ih hsub.2
      obtain ⟨i, hi, rfl⟩ := List.mem_iff_getElem.mp hsub.1
      exact ⟨_, .cons (h.get hi (h.length_eq ▸ hi)) hcs'⟩

theorem subset_of_filter_eq {cases cases' : List Case}
    (hconditioned : (cases'.filter fun c => !c.isOpen) = (cases.filter fun c => !c.isOpen))
    (hopen : cases'.filter Case.isOpen = cases.filter Case.isOpen) : cases' ⊆ cases := by
  intro c hc
  cases hc' : c.isOpen with
  | true =>
      have hmem : c ∈ cases'.filter Case.isOpen := List.mem_filter.mpr ⟨hc, hc'⟩
      exact List.mem_of_mem_filter (hopen ▸ hmem)
  | false =>
      have hmem : c ∈ cases'.filter fun c => !c.isOpen := List.mem_filter.mpr ⟨hc, by rw [hc']; rfl⟩
      exact List.mem_of_mem_filter (hconditioned ▸ hmem)

theorem forall₂_bindsCase_filter {cases : List Case} {cs : List BoundCase}
    (h : List.Forall₂ d.BindsCase cases cs) :
    List.Forall₂ d.BindsCase (cases.filter fun c => !c.isOpen) (cs.filter fun b => !b.isOpen) ∧
      List.Forall₂ d.BindsCase (cases.filter Case.isOpen) (cs.filter BoundCase.isOpen) := by
  constructor
  all_goals
    refine List.rel_filter (fun c b hb => ?_) h
    dsimp only
    rw [hb.isOpen]

/-- What the number of an open case makes of it: the last one takes everything, and the others have
the condition that the dialect has for the numbered template. -/
def NumberedAs (d : Dialect) (template : String) (last number : Nat) (b : BoundCase) : Prop :=
  if number = last then b.spelling = "" ∧ b.condition = .always
  else b.spelling = "@" ++ template ++ toString number ∧
    ∀ site, d.condition site b.spelling = .ok b.condition

variable {template : String} {last number : Nat} {cs cs' opened : List BoundCase}

/-- Cases with a condition are neither numbered nor changed, wherever they stand. -/
theorem numberCases_filter (h : d.numberCases template last number cs = .ok cs') :
    (cs'.filter fun c => !c.isOpen) = (cs.filter fun c => !c.isOpen) ∧
      d.numberCases template last number (cs.filter BoundCase.isOpen) = .ok (cs'.filter BoundCase.isOpen) := by
  induction cs generalizing number cs' with
  | nil =>
      cases h
      exact ⟨rfl, rfl⟩
  | cons c cs ih =>
      rw [numberCases_cons_eq_ok_iff] at h
      split at h
      next hopen =>
        obtain ⟨spelling, condition, rest, hnumbered, hrest, rfl⟩ := h
        obtain ⟨hclosed, hopened⟩ := ih hrest
        simp only [List.filter_cons, hopen, Bool.not_true, Bool.false_eq_true, if_true, if_false]
        refine ⟨hclosed, numberCases_cons_eq_ok_iff.mpr ?_⟩
        rw [if_pos hopen]
        exact ⟨spelling, condition, _, hnumbered, hopened, by rw [hopen]⟩
      next hclosed =>
        obtain ⟨rest, hrest, rfl⟩ := h
        obtain ⟨heq, hopened⟩ := ih hrest
        rw [Bool.not_eq_true] at hclosed
        simp only [List.filter_cons, hclosed, Bool.not_false, Bool.false_eq_true, if_true, if_false]
        exact ⟨congrArg (c :: ·) heq, hopened⟩

theorem exists_numberCases (h : d.numberCases template last number (cs.filter BoundCase.isOpen) = .ok opened) :
    ∃ cs', d.numberCases template last number cs = .ok cs' := by
  induction cs generalizing number opened with
  | nil => exact ⟨[], rfl⟩
  | cons c cs ih =>
      rw [List.filter_cons] at h
      split at h
      next hopen =>
        rw [numberCases_cons_eq_ok_iff, if_pos hopen] at h
        obtain ⟨spelling, condition, rest, hnumbered, hrest, rfl⟩ := h
        obtain ⟨cs', hcs'⟩ := ih hrest
        refine ⟨{ c with spelling, condition } :: cs', numberCases_cons_eq_ok_iff.mpr ?_⟩
        rw [if_pos hopen]
        exact ⟨spelling, condition, cs', hnumbered, hcs', rfl⟩
      next hclosed =>
        obtain ⟨cs', hcs'⟩ := ih h
        refine ⟨c :: cs', numberCases_cons_eq_ok_iff.mpr ?_⟩
        rw [if_neg hclosed]
        exact ⟨cs', hcs', rfl⟩

def BindsOpenCase (d : Dialect) (c : Case) (b : BoundCase) : Prop :=
  b.isOpen = true ∧ d.bind c.body = .ok b.body

theorem numbered_of_numberCases {cases : List Case} (hcs : List.Forall₂ d.BindsCase cases cs)
    (hopen : ∀ c ∈ cases, c.isOpen = true) (h : d.numberCases template last number cs = .ok opened) :
    List.Forall₂ d.BindsOpenCase cases opened ∧
      ∀ k b, opened[k]? = some b → d.NumberedAs template last (number + k) b := by
  induction hcs generalizing number opened with
  | nil =>
      cases h
      exact ⟨.nil, nofun⟩
  | @cons c b cases cs hb _ ih =>
      rw [List.forall_mem_cons] at hopen
      have hbopen : b.isOpen = true := hb.isOpen.trans hopen.1
      rw [numberCases_cons_eq_ok_iff, if_pos hbopen] at h
      obtain ⟨spelling, condition, rest, hnumbered, hrest, rfl⟩ := h
      obtain ⟨hbodies, hnumbers⟩ := ih hopen.2 hrest
      refine ⟨.cons ⟨hbopen, hb.body⟩ hbodies, fun k b' hb' => ?_⟩
      cases k with
      | zero =>
          cases hb'
          rw [NumberedAs, Nat.add_zero]
          split at hnumbered
          next hlast =>
            rw [if_pos hlast]
            exact hnumbered
          next hlast =>
            rw [if_neg hlast]
            exact ⟨hnumbered.1, condition_site hnumbered.2⟩
      | succ k =>
          have hshift : number + (k + 1) = number + 1 + k := by omega
          rw [hshift]
          exact hnumbers k b' hb'

/-- How the open cases of a switch are told apart: by nothing, or by the numbers of its template. -/
def Opens (d : Dialect) (template : Option String) (cs opened : List BoundCase) : Prop :=
  match template with
  | none => opened = cs
  | some template => d.numberCases template cs.length 1 cs = .ok opened

theorem arrangeCases_eq_ok_iff {template : Option String} :
    d.arrangeCases template cs = .ok cs' ↔
      ∃ opened, d.Opens template (cs.filter BoundCase.isOpen) opened ∧
        cs' = (cs.filter fun c => !c.isOpen) ++ opened := by
  cases template with
  | none =>
      constructor
      · rintro ⟨⟩
        exact ⟨_, rfl, rfl⟩
      · rintro ⟨_, rfl, rfl⟩
        rfl
  | some template =>
      rw [arrangeCases, map_eq_ok_iff]
      constructor
      · rintro ⟨numbered, hnumbered, rfl⟩
        obtain ⟨hclosed, hopened⟩ := numberCases_filter hnumbered
        exact ⟨_, hopened, congrArg (· ++ _) hclosed⟩
      · rintro ⟨opened, hopened, rfl⟩
        obtain ⟨numbered, hnumbered⟩ := exists_numberCases hopened
        obtain ⟨hclosed, hopened'⟩ := numberCases_filter hnumbered
        cases hopened.symm.trans hopened'
        exact ⟨numbered, hnumbered, congrArg (· ++ _) hclosed⟩

/-- What the open cases of a switch are bound to: without a template they all take everything, and with
one they are numbered from one. -/
def BindsOpen (d : Dialect) (template : Option String) (cases : List Case) (opened : List BoundCase) : Prop :=
  List.Forall₂ d.BindsOpenCase cases opened ∧
    ∀ k b, opened[k]? = some b →
      match template with
      | none => b.spelling = "" ∧ b.condition = .always
      | some template => d.NumberedAs template opened.length (k + 1) b

/-- The standard dialect takes a case without a condition to be always met. -/
theorem BindsCase.lone {c : Case} {b : BoundCase} (h : standard.BindsCase c b) (hopen : c.isOpen = true) :
    b.spelling = "" ∧ b.condition = .always := by
  have htext : caseText c = "" := by rw [caseText, Option.isNone_iff_eq_none.mp hopen]
  have hcondition := h.condition
  rw [htext, standard_condition_empty] at hcondition
  exact ⟨h.spelling.trans htext, (Except.ok.inj hcondition).symm⟩

theorem standard_bindsOpen {template : Option String} {cases : List Case}
    (h : List.Forall₂ standard.BindsCase cases cs) (hopen : ∀ c ∈ cases, c.isOpen = true)
    (hopened : standard.Opens template cs opened) : standard.BindsOpen template cases opened := by
  cases template with
  | none =>
      cases hopened
      have hall := (List.forall₂_and_left _ _).mpr ⟨hopen, h⟩
      refine ⟨hall.imp fun c b hb => ⟨hb.2.isOpen.trans hb.1, hb.2.body⟩, fun k b hb => ?_⟩
      obtain ⟨hk, rfl⟩ := List.getElem?_eq_some_iff.mp hb
      have hcase := hall.get (hall.length_eq ▸ hk) hk
      exact hcase.2.lone hcase.1
  | some template =>
      obtain ⟨hbodies, hnumbers⟩ := numbered_of_numberCases h hopen hopened
      have hlength : opened.length = cs.length := hbodies.length_eq.symm.trans h.length_eq
      refine ⟨hbodies, fun k b hb => ?_⟩
      change standard.NumberedAs template opened.length (k + 1) b
      rw [hlength, Nat.add_comm]
      exact hnumbers k b hb

/-- The cases with a condition come first and the open ones after them, both in the order written, and
each kind is bound apart from the other: where open cases stand among those with a condition does not
matter. -/
theorem standard_bindPart_switch {subject : Reference} {template : Option String} {cases : List Case}
    {nullCase : Option NullCase} {q : BoundPart}
    (h : standard.bindPart (.switch subject template cases nullCase) = .ok q) :
    (∃ evaluator formatter conditioned opened n,
        q = .switch subject evaluator formatter template (conditioned ++ opened) n ∧
        List.Forall₂ standard.BindsCase (cases.filter fun c => !c.isOpen) conditioned ∧
        standard.BindsOpen template (cases.filter Case.isOpen) opened) ∧
      ∀ cases' : List Case, (cases'.filter fun c => !c.isOpen) = (cases.filter fun c => !c.isOpen) →
        cases'.filter Case.isOpen = cases.filter Case.isOpen →
        standard.bindPart (.switch subject template cases' nullCase) = .ok q := by
  obtain ⟨evaluator, formatter, cs, n, cs', he, hf, hcs, hn, hcs', rfl⟩ := bindPart_switch_eq_ok_iff.mp h
  rw [bindCases_eq_ok_iff] at hcs
  obtain ⟨opened, hopened, rfl⟩ := arrangeCases_eq_ok_iff.mp hcs'
  obtain ⟨hconditioned, hopen⟩ := forall₂_bindsCase_filter hcs
  refine ⟨⟨evaluator, _, _, opened, n, rfl, hconditioned, standard_bindsOpen hopen ?_ hopened⟩, ?_⟩
  · exact fun c hc => List.of_mem_filter hc
  · intro cases' hconditioned' hopen'
    obtain ⟨ds, hds⟩ := exists_bindCases_of_subset hcs (subset_of_filter_eq hconditioned' hopen')
    obtain ⟨hconditioned'', hopen''⟩ := forall₂_bindsCase_filter hds
    rw [hconditioned'] at hconditioned''
    rw [hopen'] at hopen''
    have hsame := rightUnique_bindsCase.forall₂ hconditioned'' hconditioned
    have hsame' := rightUnique_bindsCase.forall₂ hopen'' hopen
    have hds' : standard.arrangeCases template ds = .ok ((cs.filter fun b => !b.isOpen) ++ opened) :=
      arrangeCases_eq_ok_iff.mpr ⟨opened, hsame' ▸ hopened, by rw [hsame]⟩
    exact bindPart_switch_eq_ok_iff.mpr
      ⟨evaluator, formatter, ds, n, _, he, hf, bindCases_eq_ok_iff.mpr hds, hn, hds', rfl⟩

def itemCases : List BoundCase :=
  [⟨false, "none", .oneOf ⟨.strings ["none"], false⟩, [.text "no items"]⟩,
    ⟨true, "@Plural1", .stored none "Plural1", [.text "item"]⟩, ⟨true, "", .always, [.text "items"]⟩]

theorem standard_bindPart_switch_itemCases :
    standard.bindPart (.switch { name := "N" } (some "Plural")
        [⟨none, [.text "item"]⟩, ⟨some [.text "none"], [.text "no items"]⟩, ⟨none, [.text "items"]⟩] none) =
        .ok (.switch { name := "N" } (.direct "N") none (some "Plural") itemCases none) ∧
      standard.bindPart (.switch { name := "N" } (some "Plural")
        [⟨some [.text "none"], [.text "no items"]⟩, ⟨none, [.text "item"]⟩, ⟨none, [.text "items"]⟩] none) =
        .ok (.switch { name := "N" } (.direct "N") none (some "Plural") itemCases none) := by
  have hnone : standard.condition .switchCase "none" = .ok (.oneOf ⟨.strings ["none"], false⟩) :=
    standard_condition_of_simple (s := "none".toList) (by decide +kernel) (by decide) rfl _
  have hnumbered : standard.condition .templatedSwitch "@Plural1" = .ok (.stored none "Plural1") :=
    standard_condition_of_simple (s := "@Plural1".toList) (by decide +kernel) (by decide) rfl _
  have hnumbers : standard.numberCases "Plural" 2 1
      [⟨true, "", .always, [.text "item"]⟩, ⟨true, "", .always, [.text "items"]⟩] = .ok itemCases.tail := by
    refine numberCases_cons_eq_ok_iff.mpr ?_
    rw [if_pos rfl]
    exact ⟨"@Plural1", .stored none "Plural1", [⟨true, "", .always, [.text "items"]⟩], ⟨rfl, hnumbered⟩, rfl, rfl⟩
  refine ⟨?bound, (standard_bindPart_switch ?bound).2 _ rfl rfl⟩
  refine bindPart_switch_eq_ok_iff.mpr ⟨.direct "N", .default,
    [⟨true, "", .always, [.text "item"]⟩, ⟨false, "none", .oneOf ⟨.strings ["none"], false⟩, [.text "no items"]⟩,
      ⟨true, "", .always, [.text "items"]⟩], none, itemCases, rfl, rfl, ?_, rfl, ?_, rfl⟩
  · exact bindCases_eq_ok_iff.mpr (.cons ⟨rfl, rfl, standard_condition_empty, rfl⟩
      (.cons ⟨rfl, rfl, hnone, rfl⟩ (.cons ⟨rfl, rfl, standard_condition_empty, rfl⟩ .nil)))
  · exact arrangeCases_eq_ok_iff.mpr ⟨itemCases.tail, hnumbers, rfl⟩

end Dialect

end Phrasebook
