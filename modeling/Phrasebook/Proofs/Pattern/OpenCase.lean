import Phrasebook.Proofs.Pattern.RoundTrip
import Phrasebook.Proofs.Pattern.NullMark

namespace Phrasebook

namespace Expression

def openCase (subject : Reference) (template : Option String) (e : Expression) : Expression :=
  [.switch subject template [⟨none, e⟩] none]

instance decidableNoLeadingColon : DecidablePred NoLeadingColon
  | [] => .isTrue trivial
  | .text _ :: rest => decidableNoLeadingColon rest
  | .reference _ :: _ => .isTrue trivial
  | .switch subject none _ _ :: _ => inferInstanceAs (Decidable (subject.format = ""))
  | .switch subject (some template) _ _ :: _ =>
    inferInstanceAs (Decidable (subject.format = "" ∨ '|' ∈ template.toList ∨ '|' ∈ subject.name.toList))
  | .group _ none :: rest => decidableNoLeadingColon rest
  | .group _ (some _) :: _ => .isFalse id
  | .custom _ :: _ => .isFalse id

end Expression

namespace Reader

open Expression (NoLeadingColon)
open Printer (escaped nameMarks templateMarks)

theorem format_of_ne (marks : List Char) {s : String} (hs : s ≠ "") :
    Printer.format marks s = ':' :: escaped marks s := by
  rw [Printer.format, if_neg (by simpa using hs)]

theorem firstOf_colon {marks s t : List Char} (h : Spells marks s t) (hs : ':' ∈ marks) (r : List Char) :
    firstOf marks (s ++ ':' :: r) = some ':' := by
  rw [h.firstOf_append, firstOf_mark hs (by decide)]

theorem spells_name (name : String) : Spells conditionStops (escaped nameMarks name) name.toList :=
  spells_escaped (by decide) (by decide) name

theorem firstOf_head_eq_colon {subject : Reference} {template : Option String} {cases : List Case}
    {nullCase : Option NullCase} {rest : Expression}
    (h : ¬ NoLeadingColon (.switch subject template cases nullCase :: rest)) (r : List Char) :
    firstOf conditionStops (Printer.head subject template ++ r) = some ':' := by
  cases template with
  | none =>
      rw [Printer.head, format_of_ne _ h, List.append_assoc]
      exact firstOf_colon (spells_name subject.name) (by decide) _
  | some t =>
      obtain ⟨hformat, htemplate, hname⟩ :
          subject.format ≠ "" ∧ '|' ∉ t.toList ∧ '|' ∉ subject.name.toList := by
        simpa [NoLeadingColon] using h
      rw [Printer.head, format_of_ne _ hformat]
      simp only [List.append_assoc, List.cons_append]
      rw [firstOf_escaped_template, if_neg htemplate, firstOf_cons (by decide) (by decide),
        firstOf_escaped_template, if_neg hname, firstOf_mark (by decide) (by decide)]

/-- A colon that is printed inside of a part may be the first mark that is met. -/
theorem firstOf_parts_eq_colon {e : Expression} (hshaped : ∀ p ∈ e, p.Shaped) (h : ¬ NoLeadingColon e)
    (first : Bool) (r : List Char) :
    firstOf conditionStops (Printer.parts .openCase first e ++ r) = some ':' := by
  induction e generalizing first with
  | nil => exact (h trivial).elim
  | cons p e ih =>
      have ih := ih fun q hq => hshaped q (List.mem_cons_of_mem p hq)
      rw [Printer.parts, List.append_assoc]
      rcases p with s | ref | ⟨subject, template, cases, nullCase⟩ | ⟨name, body⟩ | node
      · rw [Printer.part, (spells_text .openCase first (by decide) s).firstOf_append]
        exact ih h false
      · exact (h trivial).elim
      · rw [Printer.part]
        simp only [List.append_assoc, List.cons_append]
        rw [firstOf_cons (by decide) (by decide)]
        exact firstOf_head_eq_colon h _
      · rw [Printer.part]
        cases body with
        | none =>
            simp only [Printer.groupBody, List.append_assoc, List.cons_append, List.nil_append]
            rw [firstOf_cons (by decide) (by decide), (spells_name name).firstOf_append,
              firstOf_cons (by decide) (by decide)]
            exact ih h false
        | some body =>
            simp only [Printer.groupBody, List.append_assoc, List.cons_append]
            rw [firstOf_cons (by decide) (by decide)]
            exact firstOf_colon (spells_name name) (by decide) _
      · exact (hshaped _ List.mem_cons_self).elim

theorem firstOf_quoted_eq_colon {e : Expression} (hshaped : ∀ p ∈ e, p.Shaped) (h : ¬ NoLeadingColon e)
    (r : List Char) :
    firstOf conditionStops (Printer.quoted e (Printer.parts .openCase true e) ++ r) = some ':' := by
  unfold Printer.quoted
  split
  · rw [List.cons_append, List.cons_append, firstOf_cons (by decide) (by decide), List.append_assoc]
    exact firstOf_parts_eq_colon hshaped h true _
  · exact firstOf_parts_eq_colon hshaped h true r

theorem Reads.noLeadingColon_of_quoted {e : Expression} (he : e.Regular)
    (hne : Printer.quoted e (Printer.parts .openCase true e) ≠ []) {r r' : List Char} {i : Nat}
    {c : Case} {cs : List Case} {nullCase : Option NullCase}
    (h : Reads (Printer.quoted e (Printer.parts .openCase true e) ++ r) (.cases i (c :: cs) nullCase) r')
    (hc : c.condition = none) :
    NoLeadingColon e := by
  have hshaped (p : Part) (hp : p ∈ e) : p.Shaped := he.shaped p (.here hp)
  have hbegins := begins_quoted he.separated hshaped .openCase
  have htrim : Text.trimStart (Printer.quoted e (Printer.parts .openCase true e) ++ r) =
      Printer.quoted e (Printer.parts .openCase true e) ++ r := by
    refine Text.trimStart_of_head? fun d hd => ?_
    rw [List.head?_append_of_ne_nil _ hne] at hd
    exact (hbegins d hd).1
  generalize htext : Printer.quoted e (Printer.parts .openCase true e) ++ r = text at h htrim
  cases h with
  | nullCase _ hq =>
      have hhead := congrArg List.head? hq
      rw [htrim, ← htext, List.head?_append_of_ne_nil _ hne] at hhead
      exact ((hbegins '?' hhead).2.2 rfl rfl).elim
  | case _ _ hcond =>
      rw [htrim] at hcond
      cases hcond with
      | some => cases hc
      | none hfirst =>
          by_contra hcolon
          rw [← htext] at hfirst
          exact hfirst (firstOf_quoted_eq_colon hshaped hcolon r)

end Reader

namespace Expression

open Reader

section

variable {e : Expression} (subject : Reference) (template : Option String)

theorem toList_print_openCase : (print (openCase subject template e)).toList =
    '#' :: (Printer.head subject template ++
      '{' :: (Printer.quoted e (Printer.parts .openCase true e) ++ ['}'])) := by
  rw [print, String.toList_ofList, openCase]
  simp [Printer.parts, Printer.part, Printer.caseBranches, Printer.nullBranch, Printer.withNullCase,
    Printer.branches]

variable {subject template}

theorem Regular.parse_print_openCase (h : e.Regular) (hne : e.reread ≠ []) (hmark : e.Unmarked)
    (hcolon : e.NoLeadingColon) (harguments : subject.arguments = none) :
    ∃ body, parse (print (openCase subject template e)) =
        .ok (openCase subject.trimmed (template.map Text.trimmed) body) ∧ body.compact = e.reread := by
  have hshaped (p : Part) (hp : p ∈ e) : p.Shaped := h.shaped p (.here hp)
  have hcase : Case.Shaped ⟨none, e⟩ :=
    ⟨h.separated, by rintro rfl; exact hne rfl, by rintro s ⟨⟩, fun _ => hcolon⟩
  have hprinted : Printer.caseBranch ⟨none, e⟩ ≠ [] :=
    fun hnil => hne ((quoted_eq_nil_iff h.separated hshaped .openCase).mp hnil)
  obtain ⟨⟨condition, body⟩, hread, hsame⟩ := reads_case hcase hshaped (readsBack h hmark)
    (by rintro s ⟨⟩) (w := []) (u := []) (by rintro c ⟨⟩) (by rintro c ⟨⟩) (closes_brace [])
    (.inr (.inl hprinted)) (.close (i := 0 + 1))
  obtain ⟨rfl, hbody⟩ := (Case.mk.injEq ..).mp hsame
  refine ⟨unquoted (normal body), parse_eq_ok_iff.mpr ⟨openCase subject template body, ?_, rfl⟩, hbody⟩
  rw [toList_print_openCase]
  exact .switch (readsHead_printed subject harguments template _) hread .nil

/-- An expression with something to print, none of whose conditions is taken for a null case, is read back as a
case without a condition exactly if no colon of a part comes first in it. -/
theorem parse_print_openCase_iff {pattern : String} (h : parse pattern = .ok e) (hprint : e.print ≠ "")
    (hmark : e.Unmarked) (harguments : subject.arguments = none) :
    (∃ subject' template' body nullCase, parse (print (openCase subject template e)) =
        .ok [.switch subject' template' [⟨none, body⟩] nullCase]) ↔ e.NoLeadingColon := by
  have hregular := parse_regular h
  have hshaped (p : Part) (hp : p ∈ e) : p.Shaped := hregular.shaped p (.here hp)
  have hreread : e.reread ≠ [] := by
    intro hnil
    rw [tidyParts_eq_nil_iff, ← parts_eq_nil_iff hshaped .plain true] at hnil
    exact hprint (by rw [print, hnil])
  constructor
  · rintro ⟨subject', template', body, nullCase, hparse⟩
    obtain ⟨found, hread, hfound⟩ := parse_eq_ok_iff.mp hparse
    rw [toList_print_openCase] at hread
    cases hread with
    | text hc => exact (hc (by decide)).elim
    | @switch _ _ _ _ _ _ cs _ _ hhead hcases =>
        obtain ⟨-, -, rfl⟩ := hhead.unique (readsHead_printed subject harguments template _)
        obtain ⟨hswitch, -⟩ := List.cons.inj hfound
        obtain ⟨-, -, hcs, -⟩ := (Part.switch.injEq ..).mp hswitch
        rw [normalCases_eq_map] at hcs
        obtain ⟨c, rfl, hc⟩ := List.map_eq_singleton_iff.mp hcs.symm
        exact hcases.noLeadingColon_of_quoted hregular
          (fun hnil => hreread ((quoted_eq_nil_iff hregular.separated hshaped .openCase).mp hnil))
          (congrArg Case.condition hc)
  · intro hcolon
    obtain ⟨body, hparse, -⟩ := hregular.parse_print_openCase hreread hmark hcolon harguments
    exact ⟨_, _, body, none, hparse⟩

theorem parse_print_openCase_nested :
    ∃ e, parse "a: <b> #M\x7b1: #T\\|(K:uc)\x7bx\x7d | \x7by\x7d\x7d" = .ok e ∧
      ∃ subject' template' body nullCase, parse (print (openCase ⟨"N", "", none⟩ none e)) =
        .ok [.switch subject' template' [⟨none, body⟩] nullCase] := by
  have hcheck : ∃ e ∈ (parse "a: <b> #M\x7b1: #T\\|(K:uc)\x7bx\x7d | \x7by\x7d\x7d").toOption,
      e.print ≠ "" ∧ (∀ p, e.Contains p → p.NoNullMark) ∧ e.NoLeadingColon := by
    decide +kernel
  obtain ⟨e, he, hprint, hmark, hcolon⟩ := hcheck
  have h := parse_of_mem_toOption he
  exact ⟨e, h, (parse_print_openCase_iff h hprint hmark rfl).mpr hcolon⟩

/-- The colon of a group becomes the end of a condition. -/
theorem parse_print_openCase_group :
    ∃ e, parse "<b: x>" = .ok e ∧ e.print ≠ "" ∧
      print (openCase ⟨"N", "", none⟩ none e) = "#N\x7b<b: x>\x7d" ∧
      ∀ t, parse (print (openCase ⟨"N", "", none⟩ none e)) ≠ .ok t := by
  have hcheck : ∃ e ∈ (parse "<b: x>").toOption, e.print ≠ "" ∧
      print (openCase ⟨"N", "", none⟩ none e) = "#N\x7b<b: x>\x7d" ∧
      (parse (print (openCase ⟨"N", "", none⟩ none e))).toOption = none := by
    decide +kernel
  obtain ⟨e, he, hprint, htext, hnone⟩ := hcheck
  refine ⟨e, parse_of_mem_toOption he, hprint, htext, fun t ht => ?_⟩
  rw [ht] at hnone
  cases hnone

end

end Expression

end Phrasebook
