import Phrasebook.Proofs.Pattern.Printed

namespace Phrasebook.Reader

open Expression (atoms Separated)

theorem spells_blanks {stops w : List Char} (hs : ∀ c ∈ stops, Text.isBlank c = false)
    (hw : ∀ c ∈ w, Text.isBlank c = true) : Spells stops w w := by
  induction w with
  | nil => exact .nil
  | cons c w ih =>
      have hc := hw c List.mem_cons_self
      refine .plain ?_ ?_ (ih fun d hd => hw d (List.mem_cons_of_mem c hd))
      · intro h
        rw [hs c h] at hc
        cases hc
      · rintro rfl
        cases hc

theorem atoms_textParts (t : List Char) : atoms (textParts t) = Atom.chars t := by
  unfold textParts
  split
  next h =>
    rw [h]
    rfl
  next =>
    rw [Expression.atoms_cons, Part.atoms, String.toList_ofList]
    exact List.append_nil _

theorem map_normal_textParts (t : List Char) : (textParts t).map Part.normal = textParts t := by
  unfold textParts
  split <;> rfl

theorem map_chars (f : Part → Part) (t : List Char) :
    (Atom.chars t).map (Sum.map id f) = Atom.chars t := by
  rw [List.map_map]
  rfl

def PartReadsBack (p : Part) : Prop :=
  ∀ (place : Printer.Place) (first : Bool) {r r' : List Char} {raw : List Part},
    Reads r (.parts raw) r' → ∃ q, Reads (Printer.part place first p ++ r) (.parts (q :: raw)) r' ∧
      q.isText = false ∧ q.normal.compact = p.reread

/-- The printed form of an expression, with text before and after it, reads as that text and the
expression. -/
def ReadsBack (e : Expression) : Prop :=
  ∀ (place : Printer.Place) (first : Bool) {s s' t t' r : List Char}, Spells textStops s t →
    Spells textStops s' t' → Ends r →
    ∃ raw, Reads (s ++ (Printer.parts place first e ++ (s' ++ r))) (.parts raw) r ∧
      (atoms (raw.map Part.normal)).map (Sum.map id Part.compact) =
        Atom.chars t ++ ((atoms e).map (Sum.map id Part.reread) ++ Atom.chars t')

theorem readsBack_of_parts {e : Expression} (hshaped : ∀ p ∈ e, p.Shaped)
    (h : ∀ p ∈ e, p.isText = false → PartReadsBack p) : ReadsBack e := by
  induction e with
  | nil =>
      intro place first s s' t t' r hs hs' hr
      refine ⟨textParts (t ++ t') ++ [], ?_, ?_⟩
      · rw [Printer.parts, List.nil_append, ← List.append_assoc]
        exact hr.reads.text_before (hs.append hs') hr.head?_mem
      · rw [List.append_nil, map_normal_textParts, atoms_textParts, map_chars, Atom.chars, List.map_append]
        rfl
  | cons p e ih =>
      have ih := ih (fun q hq => hshaped q (List.mem_cons_of_mem p hq))
        fun q hq => h q (List.mem_cons_of_mem p hq)
      intro place first s s' t t' r hs hs' hr
      rw [Printer.parts]
      cases hp : p.isText with
      | true =>
          obtain ⟨c, rfl⟩ : ∃ c, p = .text c := by cases p <;> first | exact ⟨_, rfl⟩ | cases hp
          have hc : Spells textStops (Printer.text place first c) c.toList :=
            spells_text place first (by cases place <;> decide) c
          obtain ⟨raw, hraw, ha⟩ := ih place false (hs.append hc) hs' hr
          refine ⟨raw, ?_, ?_⟩
          · simpa only [Printer.part, List.append_assoc] using hraw
          · rw [ha, Expression.atoms_cons, Part.atoms, List.map_append, map_chars, Atom.chars,
              List.map_append, List.append_assoc, List.append_assoc]
      | false =>
          obtain ⟨raw, hraw, ha⟩ := ih place false .nil hs' hr
          rw [List.nil_append] at hraw
          obtain ⟨q, hq, htext, hsame⟩ := h p List.mem_cons_self hp place first hraw
          have hhead : ∀ c ∈ (Printer.part place first p ++
              (Printer.parts place false e ++ (s' ++ r))).head?, c ∈ textStops := by
            obtain ⟨c, u, hu, hc, -⟩ := begins_part place first hp (hshaped p List.mem_cons_self) _
            rw [hu]
            rintro d ⟨⟩
            exact hc
          refine ⟨textParts t ++ q :: raw, ?_, ?_⟩
          · rw [List.append_assoc]
            exact hq.text_before hs hhead
          · have hq' : q.normal.isText = false := by rw [q.isText_normal, htext]
            rw [List.map_append, Expression.atoms_append, map_normal_textParts, atoms_textParts,
              List.map_append, map_chars, List.map_cons, Expression.atoms_cons, List.map_append, ha,
              Part.atoms_of_not_isText hq', Expression.atoms_cons, Part.atoms_of_not_isText hp]
            simp [hsame]

theorem isEdge_firstChar? {e : Expression} (h : Separated e) :
    Printer.isEdge (Expression.firstChar? e) = (atoms e).head?.any Atom.isEdge := by
  cases hc : Expression.firstChar? e with
  | some c =>
      rw [(h.firstChar?_eq_some_iff c).mp hc]
      rfl
  | none =>
      rcases ha : (atoms e).head? with _ | c | p
      · rfl
      · cases hc.symm.trans ((h.firstChar?_eq_some_iff c).mpr ha)
      · rfl

theorem isEdge_lastChar? {e : Expression} (h : Separated e) :
    Printer.isEdge (Expression.lastChar? e) = (atoms e).getLast?.any Atom.isEdge := by
  cases hc : Expression.lastChar? e with
  | some c =>
      rw [(h.lastChar?_eq_some_iff c).mp hc]
      rfl
  | none =>
      rcases ha : (atoms e).getLast? with _ | c | p
      · rfl
      · cases hc.symm.trans ((h.lastChar?_eq_some_iff c).mpr ha)
      · rfl

def restored (raw : List Part) : Expression :=
  (Expression.unquoted (Expression.normal (orEmptyText raw))).compact

theorem restored_eq {raw : List Part} {e : Expression} {r r' : List Char} {l : List Atom}
    (hraw : Reads r (.parts raw) r') (he : Separated e)
    (ha : (atoms (raw.map Part.normal)).map (Sum.map id Part.compact) = l.map (Sum.map id Part.reread))
    (hl : Atom.unquoted l = atoms e) : restored raw = e.reread := by
  have hsep : Separated (Expression.normal (orEmptyText raw)) := hraw.separated.orEmptyText.normal
  refine Expression.tidyParts_congr hsep.unquoted he ?_
  have hnormal : atoms (Expression.normal (orEmptyText raw)) = atoms (raw.map Part.normal) := by
    rw [Expression.normal, normalParts_eq_map, Expression.atoms_orEmptyText]
    cases raw <;> rfl
  rw [hsep.atoms_unquoted, hnormal, ← Atom.unquoted_map, ha, Atom.unquoted_map, hl]

theorem ReadsBack.quoted {e : Expression} (h : ReadsBack e) (he : Separated e) (place : Printer.Place)
    {w u r : List Char} (hw : ∀ c ∈ w, Text.isBlank c = true) (hu : ∀ c ∈ u, Text.isBlank c = true)
    (hr : Ends r) :
    ∃ raw, Reads (w ++ (Printer.quoted e (Printer.parts place true e) ++ (u ++ r))) (.parts raw) r ∧
      restored raw = e.reread := by
  have hquote : Spells textStops ['"'] ['"'] := .plain (by decide) (by decide) .nil
  have hfix (f : Part → Part) (l : List Atom) (v v' : List Char) :
      Atom.chars v ++ (l.map (Sum.map id f) ++ Atom.chars v') =
        (Atom.chars v ++ (l ++ Atom.chars v')).map (Sum.map id f) := by
    rw [List.map_append, List.map_append, map_chars, map_chars]
  unfold Printer.quoted
  split
  · obtain ⟨raw, hraw, ha⟩ := h place true ((spells_blanks (by decide) hw).append hquote)
      (hquote.append (spells_blanks (by decide) hu)) hr
    refine ⟨raw, by simpa using hraw, restored_eq hraw he (ha.trans (hfix _ _ _ _)) ?_⟩
    have := Atom.unquoted_quotes (l := atoms e) hw hu
    simpa using this
  next hedge =>
    obtain ⟨raw, hraw, ha⟩ := h place true (spells_blanks (by decide) hw) (spells_blanks (by decide) hu) hr
    rw [Bool.not_eq_true, Bool.or_eq_false_iff, isEdge_firstChar? he, isEdge_lastChar? he] at hedge
    exact ⟨raw, hraw, restored_eq hraw he (ha.trans (hfix _ _ _ _))
      (Atom.unquoted_blanks hw hu hedge.1 hedge.2)⟩

theorem trimStart_printed {w q u r : List Char} (hw : ∀ c ∈ w, Text.isBlank c = true)
    (hq : ∀ c ∈ q.head?, Text.isBlank c = false) (hu : ∀ c ∈ u, Text.isBlank c = true)
    (hr : ∀ c ∈ r.head?, Text.isBlank c = false) :
    ∃ v, (∀ c ∈ v, Text.isBlank c = true) ∧ Text.trimStart (w ++ (q ++ (u ++ r))) = q ++ (v ++ r) := by
  rw [Text.trimStart_blanks_append hw]
  cases q with
  | nil =>
      refine ⟨[], by rintro c ⟨⟩, ?_⟩
      rw [List.nil_append, Text.trimStart_blanks_append hu, Text.trimStart_of_head? hr]
      rfl
  | cons c q => exact ⟨u, hu, Text.trimStart_of_head? hq⟩

def Closes (r : List Char) : Prop :=
  ∃ c u, r = c :: u ∧ c ∈ ['}', '|']

theorem Closes.head? {r : List Char} (h : Closes r) {motive : Char → Prop} (hbrace : motive '}')
    (hbar : motive '|') : ∀ c ∈ r.head?, motive c := by
  obtain ⟨c, u, rfl, hc⟩ := h
  rintro d ⟨⟩
  simp only [List.mem_cons, List.not_mem_nil, or_false] at hc
  rcases hc with rfl | rfl
  · exact hbrace
  · exact hbar

theorem Closes.ends {r : List Char} (h : Closes r) : Ends r :=
  h.head? (by decide) (by decide)

theorem Closes.firstOf_ne {r : List Char} (h : Closes r) : firstOf conditionStops r ≠ some ':' := by
  obtain ⟨c, u, rfl, hc⟩ := h
  simp only [List.mem_cons, List.not_mem_nil, or_false] at hc
  rcases hc with rfl | rfl
  · rw [firstOf_mark (by decide) (by decide)]
    decide
  · rw [firstOf_mark (by decide) (by decide)]
    decide

theorem Spells.head?_append_ne {marks s t r : List Char} (h : Spells marks s t) {d : Char}
    (hd : d ≠ '\\') (ht : d ∈ marks ∨ t.head? ≠ some d) (hr : r.head? ≠ some d) :
    (s ++ r).head? ≠ some d := by
  cases h with
  | nil => exact hr
  | escaped => exact fun he => hd (Option.some.inj he).symm
  | plain hc =>
      intro he
      obtain rfl := Option.some.inj he
      rcases ht with ht | ht
      · exact hc ht
      · exact ht rfl

end Phrasebook.Reader

namespace Phrasebook

namespace Printer

def caseBranch (c : Case) : List Char :=
  match c.condition with
  | none => quoted c.body (parts .openCase true c.body)
  | some spelling => condition spelling ++ ':' :: ' ' :: quoted c.body (parts .plain true c.body)

def casePlace (c : Case) : Place :=
  match c.condition with
  | none => .openCase
  | some _ => .plain

theorem caseBranches_eq_map (cases : List Case) : caseBranches cases = cases.map caseBranch := by
  induction cases with
  | nil => rfl
  | cons c cases ih =>
      obtain ⟨_ | spelling, body⟩ := c
      · rw [caseBranches, ih]
        rfl
      · rw [caseBranches, ih]
        rfl

theorem nullBranch_eq_map (nullCase : Option NullCase) : nullBranch nullCase =
    nullCase.map fun n => (n.position, quoted n.body (parts .plain true n.body)) := by
  rcases nullCase with _ | ⟨position, body⟩
  · rfl
  · rw [nullBranch]
    rfl

end Printer

def Case.reread (c : Case) : Case :=
  ⟨c.condition.map (Expression.mapFirstText Text.trimStart), Expression.reread c.body⟩

def Case.restored (c : Case) : Case :=
  ⟨c.condition, (Expression.unquoted (Expression.normal c.body)).compact⟩

namespace Reader

open Printer (escaped conditionMarks)

/-- The condition of a printed case is read as it was, without the white space before it, and leaves
the printed body. -/
def CaseBegins (c : Case) (w u r : List Char) : Prop :=
  ∃ w' u', (∀ d ∈ w', Text.isBlank d = true) ∧ (∀ d ∈ u', Text.isBlank d = true) ∧
    (w ++ (Printer.caseBranch c ++ (u ++ r))).head? ≠ some '}' ∧
    (Text.trimStart (w ++ (Printer.caseBranch c ++ (u ++ r)))).head? ≠ some '?' ∧
    ReadsCondition (Text.trimStart (w ++ (Printer.caseBranch c ++ (u ++ r))))
      (c.condition.map (Expression.mapFirstText Text.trimStart))
      (w' ++ (Printer.quoted c.body (Printer.parts (Printer.casePlace c) true c.body) ++ (u' ++ r)))

theorem readsCondition_spelled {s : String} {body : Expression}
    (hmark : (Text.trimStart s.toList).head? ≠ some '?') {w u r : List Char}
    (hw : ∀ c ∈ w, Text.isBlank c = true) (hu : ∀ c ∈ u, Text.isBlank c = true) :
    CaseBegins ⟨some (Expression.ofText s), body⟩ w u r := by
  have hspelled (marks s : List Char) (hs : ∀ c ∈ marks, c ∈ conditionMarks) :
      Spells marks (escaped conditionMarks (String.ofList s)) s := by
    have := spells_escaped hs (by decide) (String.ofList s)
    rwa [String.toList_ofList] at this
  refine ⟨[' '], u, by decide, hu, ?_⟩
  rw [List.singleton_append]
  dsimp only [Printer.casePlace]
  generalize hq : Printer.quoted body (Printer.parts .plain true body) ++ (u ++ r) = q
  have htext : Printer.caseBranch ⟨some (Expression.ofText s), body⟩ ++ (u ++ r) =
      escaped conditionMarks s ++ ':' :: ' ' :: q := by
    simp [Printer.caseBranch, Expression.ofText, Printer.condition, ← hq]
  have htrim : Text.trimStart (w ++ (escaped conditionMarks s ++ ':' :: ' ' :: q)) =
      escaped conditionMarks (String.ofList (Text.trimStart s.toList)) ++ ':' :: ' ' :: q := by
    rw [Text.trimStart_blanks_append hw, trimStart_printed_condition]
  have hhead : (w ++ (escaped conditionMarks s ++ ':' :: ' ' :: q)).head? ≠ some '}' := by
    have hblanks : Spells ['}'] w w := spells_blanks (by decide) hw
    have hs : Spells ['}'] (escaped conditionMarks s) s.toList := spells_escaped (by decide) (by decide) s
    exact hblanks.head?_append_ne (by decide) (.inl (by decide))
      (hs.head?_append_ne (by decide) (.inl (by decide)) (by simp))
  have hnull : (escaped conditionMarks (String.ofList (Text.trimStart s.toList)) ++
      ':' :: ' ' :: q).head? ≠ some '?' :=
    (hspelled [] _ (by rintro c ⟨⟩)).head?_append_ne (by decide) (.inr hmark) (by simp)
  rw [htext, htrim]
  refine ⟨hhead, hnull, ?_⟩
  have hfirst : firstOf conditionStops (escaped conditionMarks
      (String.ofList (Text.trimStart s.toList)) ++ ':' :: ' ' :: q) = some ':' := by
    rw [(hspelled _ _ (by decide)).firstOf_append, firstOf_mark (by decide) (by decide)]
  exact .some hfirst ((hspelled _ _ (by decide)).readText_stop (by decide) (by decide) _)

theorem ReadsBack.trimStart_quoted {e : Expression} (hsep : Expression.Separated e)
    (hshaped : ∀ p ∈ e, p.Shaped) (place : Printer.Place) {w u r : List Char}
    (hw : ∀ c ∈ w, Text.isBlank c = true) (hu : ∀ c ∈ u, Text.isBlank c = true) (hr : Closes r) :
    ∃ v, (∀ c ∈ v, Text.isBlank c = true) ∧
      Text.trimStart (w ++ (Printer.quoted e (Printer.parts place true e) ++ (u ++ r))) =
        Printer.quoted e (Printer.parts place true e) ++ (v ++ r) :=
  trimStart_printed hw (fun c hc => (begins_quoted hsep hshaped place c hc).1) hu
    (hr.head? rfl rfl)

theorem readsCondition_open {body : Expression} (hsep : Expression.Separated body)
    (hshaped : ∀ p ∈ body, p.Shaped) (hcolon : Expression.NoLeadingColon body) {w u r : List Char}
    (hw : ∀ c ∈ w, Text.isBlank c = true) (hu : ∀ c ∈ u, Text.isBlank c = true) (hr : Closes r)
    (hne : w ≠ [] ∨ Printer.caseBranch ⟨none, body⟩ ≠ [] ∨ u ≠ []) :
    CaseBegins ⟨none, body⟩ w u r := by
  unfold CaseBegins
  dsimp only [Printer.caseBranch, Printer.casePlace, Option.map_none] at hne ⊢
  obtain ⟨v, hv, htrim⟩ := ReadsBack.trimStart_quoted hsep hshaped .openCase hw hu hr
  have hbegins := begins_quoted hsep hshaped .openCase
  have hfirst : firstOf conditionStops
      (Printer.quoted body (Printer.parts .openCase true body) ++ (v ++ r)) ≠ some ':' := by
    have hrest : firstOf conditionStops (v ++ r) ≠ some ':' := by
      have hblanks : Spells conditionStops v v := spells_blanks (by decide) hv
      rw [hblanks.firstOf_append]
      exact hr.firstOf_ne
    unfold Printer.quoted
    split
    · rw [List.cons_append, List.cons_append, firstOf_cons (by decide) (by decide), List.append_assoc]
      apply firstOf_parts_ne hcolon
      rw [List.singleton_append, firstOf_cons (by decide) (by decide)]
      exact hrest
    · exact firstOf_parts_ne hcolon true hrest
  generalize Printer.quoted body (Printer.parts .openCase true body) = q at *
  have hhead : (w ++ (q ++ (u ++ r))).head? ≠ some '}' := by
    cases w with
    | cons c w =>
        rintro ⟨⟩
        cases hw '}' List.mem_cons_self
    | nil =>
        cases q with
        | cons c q =>
            rintro ⟨⟩
            exact (hbegins '}' rfl).2.1 (by decide)
        | nil =>
            cases u with
            | cons c u =>
                rintro ⟨⟩
                cases hu '}' List.mem_cons_self
            | nil => simp at hne
  have hnull : (q ++ (v ++ r)).head? ≠ some '?' := by
    cases q with
    | cons c q =>
        rintro ⟨⟩
        exact (hbegins '?' rfl).2.2 rfl rfl
    | nil =>
        cases v with
        | cons c v =>
            rintro ⟨⟩
            cases hv '?' List.mem_cons_self
        | nil => exact fun h => hr.head? (motive := (· ≠ '?')) (by decide) (by decide) '?' h rfl
  refine ⟨[], v, by rintro c ⟨⟩, hv, hhead, by rwa [htrim], ?_⟩
  rw [htrim]
  exact .none hfirst

theorem caseBegins {c : Case} (hc : c.Shaped) (hshaped : ∀ p ∈ c.body, p.Shaped)
    (hmark : ∀ s, c.condition = some (Expression.ofText s) → (Text.trimStart s.toList).head? ≠ some '?')
    {w u r : List Char} (hw : ∀ c ∈ w, Text.isBlank c = true) (hu : ∀ c ∈ u, Text.isBlank c = true)
    (hr : Closes r) (hne : w ≠ [] ∨ Printer.caseBranch c ≠ [] ∨ u ≠ []) : CaseBegins c w u r := by
  obtain ⟨condition, body⟩ := c
  cases condition with
  | none => exact readsCondition_open hc.separated hshaped (hc.noLeadingColon rfl) hw hu hr hne
  | some spelling =>
      obtain ⟨s, rfl⟩ := hc.spelling spelling rfl
      exact readsCondition_spelled (hmark s rfl) hw hu

theorem reads_case {c : Case} (hc : c.Shaped) (hshaped : ∀ p ∈ c.body, p.Shaped)
    (hbody : ReadsBack c.body)
    (hmark : ∀ s, c.condition = some (Expression.ofText s) → (Text.trimStart s.toList).head? ≠ some '?')
    {w u r r' : List Char} {i : Nat} {cs : List Case}
    {nullCase : Option NullCase} (hw : ∀ c ∈ w, Text.isBlank c = true)
    (hu : ∀ c ∈ u, Text.isBlank c = true) (hr : Closes r)
    (hne : w ≠ [] ∨ Printer.caseBranch c ≠ [] ∨ u ≠ [])
    (hmore : Reads r (.moreCases (i + 1) cs nullCase) r') :
    ∃ c', Reads (w ++ (Printer.caseBranch c ++ (u ++ r))) (.cases i (c' :: cs) nullCase) r' ∧
      c'.restored = c.reread := by
  obtain ⟨w', u', hw', hu', hhead, hnull, hcond⟩ := caseBegins hc hshaped hmark hw hu hr hne
  obtain ⟨raw, hraw, hsame⟩ := hbody.quoted hc.separated (Printer.casePlace c) hw' hu' hr.ends
  refine ⟨⟨_, orEmptyText raw⟩, .case hhead hnull hcond hraw hmore, ?_⟩
  rw [Case.restored, Case.reread, ← hsame]
  rfl

theorem reads_nullCase {body : Expression} (hsep : Expression.Separated body)
    (hshaped : ∀ p ∈ body, p.Shaped) (hbody : ReadsBack body)
    {w u r r' : List Char} {i : Nat} {cs : List Case}
    (hw : ∀ c ∈ w, Text.isBlank c = true) (hu : ∀ c ∈ u, Text.isBlank c = true) (hr : Closes r)
    (hmore : Reads r (.moreCases i cs none) r') :
    ∃ raw, Reads (w ++ ('?' :: ' ' :: (Printer.quoted body (Printer.parts .plain true body) ++ (u ++ r))))
      (.cases i cs (some ⟨i, orEmptyText raw⟩)) r' ∧ restored raw = body.reread := by
  obtain ⟨v, hv, htrim⟩ :=
    ReadsBack.trimStart_quoted hsep hshaped .plain (w := [' ']) (by decide) hu hr
  obtain ⟨raw, hraw, hsame⟩ := hbody.quoted hsep .plain (w := []) (by rintro c ⟨⟩) hv hr.ends
  rw [List.nil_append, ← htrim] at hraw
  have hhead : ∀ q, (w ++ '?' :: q).head? ≠ some '}' := by
    have hblanks : Spells ['}'] w w := spells_blanks (by decide) hw
    exact fun q => hblanks.head?_append_ne (by decide) (.inl (by decide)) (by simp)
  refine ⟨raw, .nullCase (hhead _) ?_ hraw hmore, hsame⟩
  rw [Text.trimStart_blanks_append hw]
  exact Text.trimStart_of_head? (by rintro c ⟨⟩; rfl)

structure CaseReadsBack (c : Case) : Prop where
  shaped : c.Shaped
  parts_shaped : ∀ p ∈ c.body, p.Shaped
  body : ReadsBack c.body
  noNullMark : ∀ s, c.condition = some (Expression.ofText s) →
    (Text.trimStart s.toList).head? ≠ some '?'

theorem closes_bar (r : List Char) : Closes ('|' :: r) :=
  ⟨'|', r, rfl, by decide⟩

theorem closes_brace (r : List Char) : Closes ('}' :: r) :=
  ⟨'}', r, rfl, by decide⟩

theorem reads_caseBranches {cs : List Case} (hcs : ∀ c ∈ cs, CaseReadsBack c) (hne : cs ≠ [])
    {w : List Char} (hw : ∀ c ∈ w, Text.isBlank c = true)
    (hlone : w ≠ [] ∨ cs.map Printer.caseBranch ≠ [[]]) (i : Nat) (r : List Char) :
    ∃ cs', Reads (w ++ (Printer.branches (cs.map Printer.caseBranch) ++ '}' :: r)) (.cases i cs' none) r ∧
      cs'.map Case.restored = cs.map Case.reread := by
  induction cs generalizing w i with
  | nil => exact (hne rfl).elim
  | cons c cs ih =>
      have hc := hcs c List.mem_cons_self
      cases cs with
      | nil =>
          obtain ⟨c', hread, hsame⟩ := reads_case hc.shaped hc.parts_shaped hc.body hc.noNullMark hw
            (u := []) (by rintro c ⟨⟩) (closes_brace r)
            (hlone.imp_right fun h => .inl fun h' => h (by simp [h'])) (.close (i := i + 1))
          exact ⟨[c'], hread, by rw [List.map_singleton, hsame]; rfl⟩
      | cons d cs =>
          obtain ⟨cs', hmore, hsames⟩ := ih (fun c hc => hcs c (List.mem_cons_of_mem _ hc))
            (List.cons_ne_nil d cs) (w := [' ']) (by decide) (.inl (List.cons_ne_nil _ _)) (i + 1)
          obtain ⟨c', hread, hsame⟩ := reads_case hc.shaped hc.parts_shaped hc.body hc.noNullMark hw
            (u := [' ']) (by decide) (closes_bar _) (.inr (.inr (List.cons_ne_nil _ _))) (.bar hmore)
          refine ⟨c' :: cs', ?_, by rw [List.map_cons, hsame, hsames]; rfl⟩
          simpa [Printer.branches] using hread

theorem reads_branches_nullCase {cs : List Case} (hcs : ∀ c ∈ cs, CaseReadsBack c) {body : Expression}
    (hsep : Expression.Separated body) (hshaped : ∀ p ∈ body, p.Shaped) (hbody : ReadsBack body)
    {k : Nat} (hk : k ≤ cs.length) {w : List Char} (hw : ∀ c ∈ w, Text.isBlank c = true) (i : Nat)
    (r : List Char) :
    ∃ cs' raw, Reads (w ++ (Printer.branches (Printer.withNullCase (cs.map Printer.caseBranch)
      (some (k, Printer.quoted body (Printer.parts .plain true body)))) ++ '}' :: r))
      (.cases i cs' (some ⟨i + k, orEmptyText raw⟩)) r ∧
      cs'.map Case.restored = cs.map Case.reread ∧ restored raw = body.reread := by
  rw [Printer.withNullCase, List.length_map, if_pos hk]
  induction k generalizing cs w i with
  | zero =>
      cases cs with
      | nil =>
          obtain ⟨raw, hread, hsame⟩ := reads_nullCase hsep hshaped hbody hw (u := [])
            (by rintro c ⟨⟩) (closes_brace r) (.close (i := i))
          exact ⟨[], raw, by simpa [Printer.branches] using hread, rfl, hsame⟩
      | cons c cs =>
          obtain ⟨cs', hmore, hsames⟩ := reads_caseBranches hcs (List.cons_ne_nil c cs) (w := [' '])
            (by decide) (.inl (List.cons_ne_nil _ _)) i r
          obtain ⟨raw, hread, hsame⟩ := reads_nullCase hsep hshaped hbody hw (u := [' '])
            (by decide) (closes_bar _) (.bar hmore)
          exact ⟨cs', raw, by simpa [Printer.branches] using hread, hsames, hsame⟩
  | succ k ih =>
      cases cs with
      | nil => cases hk
      | cons c cs =>
          have hc := hcs c List.mem_cons_self
          obtain ⟨cs', raw, hmore, hsames, hsame⟩ := ih (fun c hc => hcs c (List.mem_cons_of_mem _ hc))
            (Nat.le_of_succ_le_succ hk) (w := [' ']) (by decide) (i + 1)
          obtain ⟨c', hread, hcase⟩ := reads_case hc.shaped hc.parts_shaped hc.body hc.noNullMark hw
            (u := [' ']) (by decide) (closes_bar _) (.inr (.inr (List.cons_ne_nil _ _))) (.bar hmore)
          refine ⟨c' :: cs', raw, ?_, by rw [List.map_cons, hcase, hsames]; rfl, hsame⟩
          rw [show i + (k + 1) = i + 1 + k by omega, List.map_cons, List.take_succ_cons,
            List.drop_succ_cons, List.cons_append]
          cases htake : (cs.map Printer.caseBranch).take k <;>
          · rw [htake] at hread
            simpa [Printer.branches] using hread

end Reader

end Phrasebook
