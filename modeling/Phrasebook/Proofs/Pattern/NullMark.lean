import Phrasebook.Proofs.Pattern.RoundTrip

namespace Phrasebook

def Part.hasNullCase : Part → Bool
  | .switch _ _ _ nullCase => nullCase.isSome
  | _ => false

/-- No condition in an expression begins, after white space, with a question mark. -/
def Expression.Unmarked (e : Expression) : Prop :=
  ∀ p, e.Contains p → p.NoNullMark

def Expression.nodes (e : Expression) : List Part :=
  e.filter fun p => !p.isText

namespace Expression

theorem nodes_cons_of_isText {p : Part} (hp : p.isText = true) (e : Expression) :
    nodes (p :: e) = nodes e :=
  List.filter_cons_of_neg (by rw [hp]; decide)

theorem nodes_cons_of_not_isText {p : Part} (hp : p.isText = false) (e : Expression) :
    nodes (p :: e) = p :: nodes e :=
  List.filter_cons_of_pos (by rw [hp]; rfl)

theorem nodes_mapFirstText (f : List Char → List Char) (e : Expression) :
    nodes (mapFirstText f e) = nodes e := by
  unfold mapFirstText
  split <;> rfl

theorem nodes_mapLastText (f : List Char → List Char) (e : Expression) :
    nodes (mapLastText f e) = nodes e := by
  fun_induction mapLastText f e with
  | case1 => rfl
  | case2 => rfl
  | case3 p rest _ ih =>
      cases hp : p.isText with
      | true => rw [nodes_cons_of_isText hp, nodes_cons_of_isText hp, ih]
      | false => rw [nodes_cons_of_not_isText hp, nodes_cons_of_not_isText hp, ih]

theorem nodes_unquoted (e : Expression) : nodes (unquoted e) = nodes e := by
  unfold unquoted
  dsimp only
  split <;> simp only [nodes_mapFirstText, nodes_mapLastText]

theorem nodes_orEmptyText (e : Expression) : nodes (Reader.orEmptyText e) = nodes e := by
  cases e <;> rfl

theorem nodes_normal (e : Expression) : nodes (normal e) = (nodes e).map Part.normal := by
  rw [normal, nodes_orEmptyText, normalParts_eq_map, nodes, List.filter_map]
  congr 2
  funext p
  rw [Function.comp_apply, p.isText_normal]

theorem nodes_tidyParts {f : Expression → Expression} {g : Option NullCase → List Case → List Case}
    (e : Expression) : nodes (tidyParts f g e) = (nodes e).map (Part.tidy f g) := by
  rw [tidyParts_eq_filter, nodes, List.filter_filter, List.filter_map, nodes]
  congr 2
  funext p
  rw [Function.comp_apply, p.isText_tidy, p.isEmptyText_tidy]
  cases p <;> simp [Part.isText, Part.isEmptyText]

theorem nodes_restored (raw : List Part) :
    nodes (Reader.restored raw) = (nodes raw).map fun q => q.normal.compact := by
  rw [Reader.restored, nodes_tidyParts, nodes_unquoted, nodes_normal, nodes_orEmptyText, List.map_map]
  rfl

theorem unmarked_nil : Unmarked [] :=
  fun _ hp => (not_contains_nil hp).elim

theorem unmarked_cons {p : Part} {e : Expression} :
    Unmarked (p :: e) ↔ (p.NoNullMark ∧ ∀ b ∈ p.bodies, Unmarked b) ∧ Unmarked e := by
  simp only [Unmarked, contains_cons]
  constructor
  · intro h
    exact ⟨⟨h p (.inl rfl), fun b hb q hq => h q (.inr (.inl ⟨b, hb, hq⟩))⟩,
      fun q hq => h q (.inr (.inr hq))⟩
  · rintro ⟨⟨hp, hbodies⟩, he⟩ q (rfl | ⟨b, hb, hq⟩ | hq)
    · exact hp
    · exact hbodies b hb q hq
    · exact he q hq

end Expression

namespace Reader

open Expression (Unmarked nodes)
open Printer (escaped conditionMarks)

theorem Reads.after_text {s t u r : List Char} {raw : List Part} (hs : Spells textStops s t)
    (hu : ∀ c ∈ u.head?, c ∈ textStops) (h : Reads (s ++ u) (.parts raw) r) :
    ∃ more, Reads u (.parts more) r ∧ nodes raw = nodes more := by
  have hread : readText textStops (s ++ u) = (t, u) := by
    rw [hs.readText_append]
    cases u with
    | nil => rw [readText, List.append_nil]
    | cons c u =>
        have hc : c ∈ textStops := hu c rfl
        rw [Reader.readText_stop hc (by rintro rfl; revert hc; decide), List.append_nil]
  cases s with
  | nil => exact ⟨raw, h, rfl⟩
  | cons c s =>
      have hc : c ∉ textStops := by
        cases hs with
        | plain hc => exact hc
        | escaped => decide
      cases h with
      | text _ ht hmore =>
          cases hread.symm.trans ht
          exact ⟨_, hmore, rfl⟩
      | stop hstop =>
          refine (hc ?_).elim
          simp only [List.mem_cons, List.not_mem_nil, or_false] at hstop
          rcases hstop with rfl | rfl | rfl <;> decide
      | _ => exact (hc (by decide)).elim

/-- Whatever follows its printed form, an expression is read with its own nodes only if no condition
in it begins with a question mark. -/
def UnmarkedIfRead (e : Expression) : Prop :=
  ∀ (place : Printer.Place) (first : Bool) {s t r r' : List Char} {raw : List Part}, Spells textStops s t →
    Reads (s ++ (Printer.parts place first e ++ r)) (.parts raw) r' →
    ((nodes raw).map fun q => q.normal.compact) = (nodes e).map Part.reread → Unmarked e

def PartUnmarkedIfRead (p : Part) : Prop :=
  ∀ (place : Printer.Place) (first : Bool) {r r' : List Char} {raw : List Part},
    Reads (Printer.part place first p ++ r) (.parts raw) r' →
    ∃ q more, raw = q :: more ∧ q.isText = false ∧
      (q.normal.compact = p.reread →
        (p.NoNullMark ∧ ∀ b ∈ p.bodies, Unmarked b) ∧ Reads r (.parts more) r')

theorem unmarkedIfRead_of_parts {e : Expression} (hshaped : ∀ p ∈ e, p.Shaped)
    (h : ∀ p ∈ e, p.isText = false → PartUnmarkedIfRead p) : UnmarkedIfRead e := by
  induction e with
  | nil => exact fun _ _ _ _ _ _ _ _ _ _ => Expression.unmarked_nil
  | cons p e ih =>
      have ih := ih (fun q hq => hshaped q (List.mem_cons_of_mem p hq))
        fun q hq => h q (List.mem_cons_of_mem p hq)
      intro place first s t r r' raw hs hread hsame
      rw [Printer.parts, List.append_assoc] at hread
      cases hp : p.isText with
      | true =>
          obtain ⟨c, rfl⟩ : ∃ c, p = .text c := by cases p <;> first | exact ⟨_, rfl⟩ | cases hp
          have hc : Spells textStops (Printer.text place first c) c.toList :=
            spells_text place first (by cases place <;> decide) c
          rw [Printer.part, ← List.append_assoc] at hread
          have he := ih place false (hs.append hc) hread hsame
          exact Expression.unmarked_cons.mpr ⟨⟨by rintro u ⟨⟩, by rintro b ⟨⟩⟩, he⟩
      | false =>
          have hhead : ∀ c ∈ (Printer.part place first p ++ (Printer.parts place false e ++ r)).head?,
              c ∈ textStops := by
            obtain ⟨c, u, hu, hc, -⟩ := begins_part place first hp (hshaped p List.mem_cons_self) _
            rw [hu]
            rintro d ⟨⟩
            exact hc
          obtain ⟨found, hfound, hnodes⟩ := hread.after_text hs hhead
          obtain ⟨q, more, rfl, hq, hpart⟩ := h p List.mem_cons_self hp place first hfound
          rw [hnodes, Expression.nodes_cons_of_not_isText hq, Expression.nodes_cons_of_not_isText hp,
            List.map_cons, List.map_cons] at hsame
          obtain ⟨hqp, hmore⟩ := List.cons.inj hsame
          obtain ⟨hunmarked, hrest⟩ := hpart hqp
          exact Expression.unmarked_cons.mpr ⟨hunmarked, ih place false (s := []) .nil hrest hmore⟩

theorem UnmarkedIfRead.quoted {e : Expression} (h : UnmarkedIfRead e) (he : e.Regular)
    (place : Printer.Place) {w u r r' : List Char} (hw : ∀ c ∈ w, Text.isBlank c = true)
    (hu : ∀ c ∈ u, Text.isBlank c = true) (hr : Ends r) {raw : List Part}
    (hread : Reads (w ++ (Printer.quoted e (Printer.parts place true e) ++ (u ++ r))) (.parts raw) r')
    (hsame : restored raw = e.reread) : Unmarked e ∧ r' = r := by
  have hnodes : ((nodes raw).map fun q => q.normal.compact) = (nodes e).map Part.reread := by
    rw [← Expression.nodes_restored, hsame, Expression.nodes_tidyParts]
  have hblanks : Spells textStops w w := spells_blanks (by decide) hw
  have hquote : Spells textStops ['"'] ['"'] := .plain (by decide) (by decide) .nil
  have hunmarked : Unmarked e := by
    have hread := hread
    unfold Printer.quoted at hread
    split at hread
    · have hread : Reads ((w ++ ['"']) ++ (Printer.parts place true e ++ '"' :: (u ++ r)))
          (.parts raw) r' := by simpa using hread
      exact h place true (hblanks.append hquote) hread hnodes
    · exact h place true hblanks hread hnodes
  obtain ⟨_, hread', -⟩ := (readsBack he hunmarked).quoted he.separated place hw hu hr
  exact ⟨hunmarked, (hread.unique hread').2⟩

theorem reference_unmarkedIfRead (ref : Reference) : PartUnmarkedIfRead (.reference ref) := by
  intro place first r r' raw hread
  rw [Printer.part, Printer.reference] at hread
  simp only [List.cons_append, List.append_assoc, List.nil_append] at hread
  cases hread with
  | reference href hmore =>
      obtain ⟨rfl, rfl⟩ := href.unique (readsReference_printed ref r)
      exact ⟨_, _, rfl, rfl, fun _ => ⟨⟨by rintro u ⟨⟩, by rintro b ⟨⟩⟩, hmore⟩⟩
  | stop hc => exact absurd hc (by decide)
  | text hc => exact (hc (by decide)).elim

theorem group_unmarkedIfRead {name : String} {body : Option Expression}
    (hbody : ∀ b ∈ body, b.Regular ∧ UnmarkedIfRead b) : PartUnmarkedIfRead (.group name body) := by
  have hname : Spells nameStops (Printer.escaped Printer.nameMarks name) name.toList :=
    spells_escaped (by decide) (by decide) name
  intro place first r r' raw hread
  rw [Printer.part] at hread
  simp only [List.cons_append, List.append_assoc, List.nil_append] at hread
  cases hread with
  | @group _ n u u₁ _ found more hn hfound hmore =>
      refine ⟨_, _, rfl, rfl, fun hsame => ?_⟩
      rw [Part.normal, normalBody_eq_map] at hsame
      simp only [Part.compact, Part.reread, Part.tidy, tidyBody_eq_map] at hsame
      injection hsame with _ hsame
      cases body with
      | none =>
          rw [Printer.groupBody, List.nil_append, hname.readText_stop (by decide) (by decide)] at hn
          cases hn
          cases hfound with
          | noBody => exact ⟨⟨by rintro u ⟨⟩, by rintro b ⟨⟩⟩, hmore⟩
      | some b =>
          rw [Printer.groupBody, List.cons_append, hname.readText_stop (by decide) (by decide)] at hn
          cases hn
          cases hfound with
          | someBody hparts =>
              obtain ⟨hregular, hb⟩ := hbody b rfl
              obtain ⟨hunmarked, hrest⟩ := hb.quoted hregular .plain (w := [' ']) (u := []) (r := '>' :: r)
                (by decide) (by rintro c ⟨⟩) (ends_cons (by decide) _) (by simpa using hparts)
                (Option.some.inj hsame)
              cases hrest
              refine ⟨⟨by rintro u ⟨⟩, fun b' hb' => ?_⟩, hmore⟩
              cases Part.mem_bodies_group.mp hb'
              exact hunmarked
  | stop hc => exact absurd hc (by decide)
  | text hc => exact (hc (by decide)).elim

/-- A question mark before a printed condition is taken for the mark of the null case. -/
theorem noNullMark_of_head?_ne {c : Case} {w r : List Char} (hw : ∀ c ∈ w, Text.isBlank c = true)
    (h : (Text.trimStart (w ++ (Printer.caseBranch c ++ r))).head? ≠ some '?') :
    ∀ s, c.condition = some (Expression.ofText s) → (Text.trimStart s.toList).head? ≠ some '?' := by
  intro s hs hnull
  apply h
  obtain ⟨t, ht⟩ := List.head?_eq_some_iff.mp hnull
  have hbranch : Printer.caseBranch c ++ r = escaped conditionMarks s ++ ':' ::
      (' ' :: (Printer.quoted c.body (Printer.parts .plain true c.body) ++ r)) := by
    rw [Printer.caseBranch, hs]
    simp [Expression.ofText, Printer.condition]
  rw [Text.trimStart_blanks_append hw, hbranch, trimStart_printed_condition, ht, escaped,
    String.toList_ofList]
  rfl

structure CaseUnmarkedIfRead (c : Case) : Prop where
  shaped : c.Shaped
  regular : Expression.Regular c.body
  body : UnmarkedIfRead c.body

namespace CaseUnmarkedIfRead

theorem parts_shaped {c : Case} (h : CaseUnmarkedIfRead c) : ∀ p ∈ c.body, p.Shaped :=
  fun p hp => h.regular.shaped p (.here hp)

theorem of_reads {c : Case} (h : CaseUnmarkedIfRead c) {w u r r' : List Char}
    (hw : ∀ c ∈ w, Text.isBlank c = true) (hu : ∀ c ∈ u, Text.isBlank c = true) (hr : Closes r)
    (hne : w ≠ [] ∨ Printer.caseBranch c ≠ [] ∨ u ≠ []) {i : Nat} {found l : List Case}
    (hread : Reads (w ++ (Printer.caseBranch c ++ (u ++ r))) (.cases i found none) r')
    (hsame : found.map Case.restored = c.reread :: l) :
    ((∀ s, c.condition = some (Expression.ofText s) → (Text.trimStart s.toList).head? ≠ some '?') ∧
      Unmarked c.body) ∧
      ∃ more, more.map Case.restored = l ∧ Reads r (.moreCases (i + 1) more none) r' := by
  generalize htext : w ++ (Printer.caseBranch c ++ (u ++ r)) = text at hread
  generalize hn : (none : Option NullCase) = nullCase at hread
  cases hread with
  | noCases => cases hsame
  | @nullCase _ _ _ _ _ _ _ later => cases later <;> cases hn
  | @case _ _ r₁ _ _ spelling raw more _ _ hq hcond hbody hmore =>
      subst hn htext
      obtain ⟨hcase, hrest⟩ := List.cons.inj hsame
      have hmark := noNullMark_of_head?_ne hw hq
      obtain ⟨w', u', hw', hu', -, -, hcond'⟩ := caseBegins h.shaped h.parts_shaped hmark hw hu hr hne
      obtain ⟨-, rfl⟩ := hcond.unique hcond'
      obtain ⟨hunmarked, rfl⟩ := h.body.quoted h.regular (Printer.casePlace c) hw' hu' hr.ends hbody
        (congrArg Case.body hcase)
      exact ⟨⟨hmark, hunmarked⟩, more, hrest, hmore⟩

end CaseUnmarkedIfRead

theorem caseBranches_unmarked {cs : List Case} (hcs : ∀ c ∈ cs, CaseUnmarkedIfRead c) (hne : cs ≠ [])
    {w : List Char} (hw : ∀ c ∈ w, Text.isBlank c = true)
    (hlone : w ≠ [] ∨ cs.map Printer.caseBranch ≠ [[]]) {i : Nat} {found : List Case} {r r' : List Char}
    (hread : Reads (w ++ (Printer.branches (cs.map Printer.caseBranch) ++ '}' :: r))
      (.cases i found none) r')
    (hsame : found.map Case.restored = cs.map Case.reread) :
    (∀ c ∈ cs, (∀ s, c.condition = some (Expression.ofText s) →
      (Text.trimStart s.toList).head? ≠ some '?') ∧ Unmarked c.body) ∧ r' = r := by
  induction cs generalizing w i found with
  | nil => exact (hne rfl).elim
  | cons c cs ih =>
      have hc := hcs c List.mem_cons_self
      cases cs with
      | nil =>
          obtain ⟨hunmarked, more, -, hclose⟩ := hc.of_reads hw (u := []) (by rintro c ⟨⟩) (closes_brace r)
            (hlone.imp_right fun h => .inl fun h' => h (by simp [h'])) hread hsame
          cases hclose
          exact ⟨List.forall_mem_singleton.mpr hunmarked, rfl⟩
      | cons d cs =>
          obtain ⟨hunmarked, more, hmore, hbar⟩ := hc.of_reads hw (u := [' ']) (by decide) (closes_bar _)
            (.inr (.inr (List.cons_ne_nil _ _))) (by simpa [Printer.branches] using hread) hsame
          cases hbar with
          | bar hcases =>
              obtain ⟨hrest, rfl⟩ := ih (fun c hc => hcs c (List.mem_cons_of_mem _ hc))
                (List.cons_ne_nil d cs) (w := [' ']) (by decide) (.inl (List.cons_ne_nil _ _)) hcases hmore
              exact ⟨List.forall_mem_cons.mpr ⟨hunmarked, hrest⟩, rfl⟩

theorem unmarked_of_reread_eq_nil {e : Expression} (h : e.reread = []) : Unmarked e := by
  intro p hp
  have htext : ∀ q ∈ e, q = .text "" := fun q hq =>
    Part.isEmptyText_eq_true_iff.mp (tidyParts_eq_nil_iff.mp h q hq)
  cases hp with
  | here hp =>
      rw [htext p hp]
      rintro s ⟨⟩
  | inside hq hb =>
      rw [htext _ hq] at hb
      cases hb

theorem Reads.rest_of_brace {r r' : List Char} {i : Nat} {found : List Case} {nullCase : Option NullCase}
    (h : Reads ('}' :: r) (.cases i found nullCase) r') : r' = r := by
  cases h with
  | noCases => rfl
  | nullCase hs => exact (hs rfl).elim
  | case hs => exact (hs rfl).elim

theorem switch_unmarkedIfRead {subject : Reference} {template : Option String} {cases : List Case}
    (hshaped : (Part.switch subject template cases none).Shaped)
    (hcases : ∀ c ∈ cases, CaseUnmarkedIfRead c) :
    PartUnmarkedIfRead (.switch subject template cases none) := by
  have hunmarked (h : ∀ c ∈ cases, (∀ s, c.condition = some (Expression.ofText s) →
      (Text.trimStart s.toList).head? ≠ some '?') ∧ Unmarked c.body) :
      (Part.switch subject template cases none).NoNullMark ∧
        ∀ b ∈ (Part.switch subject template cases none).bodies, Unmarked b := by
    constructor
    · intro s hs
      obtain ⟨c, hc, hcond⟩ := Part.mem_conditions_switch.mp hs
      exact (h c hc).1 s hcond
    · intro b hb
      rcases Part.mem_bodies_switch.mp hb with ⟨c, hc, rfl⟩ | ⟨n, ⟨⟩, -⟩
      exact (h c hc).2
  intro place first r r' raw hread
  rw [Printer.part] at hread
  simp only [List.cons_append, List.append_assoc, List.nil_append] at hread
  cases hread with
  | @switch _ _ r₁ _ _ _ found nullCase more hhead hfound hmore =>
      refine ⟨_, _, rfl, rfl, fun hsame => ?_⟩
      obtain ⟨rfl, rfl, rfl⟩ := (readsHead_printed subject hshaped.1 template _).unique hhead
      rw [Part.normal] at hsame
      simp only [Part.compact, Part.reread, Part.tidy] at hsame
      injection hsame with _ _ hfoundcases hnull
      rw [tidyNullCase_eq_map, normalNullCase_eq_map] at hnull
      obtain rfl : nullCase = none := Option.map_eq_none_iff.mp (Option.map_eq_none_iff.mp hnull)
      have hreread : tidyCases (Expression.mapFirstText Text.trimStart) withoutLoneCase cases =
          cases.map Case.reread := tidyCases_eq_map cases
      rw [tidyCases_normalCases, hreread] at hfoundcases
      rw [Printer.caseBranches_eq_map, Printer.nullBranch, Printer.withNullCase] at hfound
      by_cases hne : cases = []
      · subst hne
        cases hfound.rest_of_brace
        exact ⟨hunmarked (by rintro c ⟨⟩), hmore⟩
      have hiff := map_caseBranch_eq_lone_iff fun c hc => ⟨(hcases c hc).shaped, (hcases c hc).parts_shaped⟩
      by_cases hlone : cases.map Printer.caseBranch = [[]]
      · rw [hlone] at hfound
        cases hfound.rest_of_brace
        obtain ⟨c, rfl, hc⟩ := List.map_eq_singleton_iff.mp (hiff.mp hlone)
        rw [Case.reread, Case.mk.injEq, Option.map_eq_none_iff] at hc
        refine ⟨hunmarked (List.forall_mem_singleton.mpr ⟨fun s hs => ?_, ?_⟩), hmore⟩
        · rw [hc.1] at hs
          cases hs
        · exact unmarked_of_reread_eq_nil hc.2
      · rw [withoutLoneCase_of_ne fun _ hlone' => hlone (hiff.mpr hlone')] at hfoundcases
        obtain ⟨hmarks, rfl⟩ := caseBranches_unmarked hcases hne (w := []) (by rintro c ⟨⟩) (.inr hlone)
          hfound hfoundcases
        exact ⟨hunmarked hmarks, hmore⟩
  | stop hc => exact absurd hc (by decide)
  | text hc => exact (hc (by decide)).elim

theorem unmarkedIfRead {e : Expression} (h : e.Regular)
    (hnull : ∀ p, e.Contains p → p.hasNullCase = false) : UnmarkedIfRead e := by
  induction e using Expression.induction with
  | step e ih =>
      refine unmarkedIfRead_of_parts (fun p hp => h.shaped p (.here hp)) fun p hp htext => ?_
      have hbodies (b : Expression) (hb : b ∈ p.bodies) : b.Regular ∧ UnmarkedIfRead b :=
        ⟨h.body hp hb, ih p hp b hb (h.body hp hb) fun q hq => hnull q (.inside hp hb hq)⟩
      have hshaped := h.shaped p (.here hp)
      cases p with
      | text => cases htext
      | custom => exact hshaped.elim
      | reference ref => exact reference_unmarkedIfRead ref
      | group name body => exact group_unmarkedIfRead fun b hb => hbodies b (Part.mem_bodies_group.mpr hb)
      | switch subject template cases nullCase =>
          obtain rfl : nullCase = none := by simpa [Part.hasNullCase] using hnull _ (.here hp)
          refine switch_unmarkedIfRead hshaped fun c hc => ?_
          obtain ⟨hregular, hbody⟩ := hbodies c.body (Part.mem_bodies_switch.mpr (.inl ⟨c, hc, rfl⟩))
          exact ⟨hshaped.2.1 c hc, hregular, hbody⟩

end Reader

namespace Expression

/-- A pattern without null cases is printed as something that reads back exactly if none of its
conditions begins with a question mark. -/
theorem Regular.parse_print_iff {e : Expression} (h : e.Regular)
    (hnull : ∀ p, e.Contains p → p.hasNullCase = false) :
    (∃ e', parse e.print = .ok e' ∧ e'.compact = e.reread) ↔ Unmarked e := by
  constructor
  · rintro ⟨e', he', hsame⟩
    obtain ⟨found, hread, rfl⟩ := parse_eq_ok_iff.mp he'
    rw [print, String.toList_ofList, ← List.append_nil (Printer.parts .plain true e)] at hread
    refine Reader.unmarkedIfRead h hnull .plain true (s := []) .nil hread ?_
    have hnodes := congrArg nodes hsame
    rwa [nodes_tidyParts, nodes_normal, List.map_map, nodes_tidyParts] at hnodes
  · exact h.parse_print

end Expression

end Phrasebook
