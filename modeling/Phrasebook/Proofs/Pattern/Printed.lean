import Phrasebook.Proofs.Pattern.Compact

namespace Phrasebook.Reader

open Printer (escaped nameMarks argumentMarks formatMarks templateMarks conditionMarks)

theorem spells_text (place : Printer.Place) (first : Bool) {stops : List Char}
    (hs : ∀ c ∈ stops, c ∈ place.marks) (s : String) :
    Spells stops (Printer.text place first s) s.toList := by
  have hb : '\\' ∈ place.marks := by cases place <;> decide
  unfold Printer.text
  split
  next h =>
    obtain ⟨t, ht⟩ := List.head?_eq_some_iff.mp h.2.2
    have hp : '?' ∉ place.marks := by cases place <;> decide
    have := spells_escaped hs hb s
    unfold escaped at this ⊢
    rw [ht, List.flatMap_cons, if_neg hp] at this ⊢
    cases this with
    | plain _ _ h => exact .escaped h
  next => exact spells_escaped hs hb s

theorem formatText_printed {stops marks : List Char} (hs : ∀ c ∈ stops, c ∈ marks) (hb : '\\' ∈ marks)
    {c : Char} (hc : c ∈ stops) (hcb : c ≠ '\\') (hcc : c ≠ ':') (s : String) (r : List Char) :
    formatText stops (Printer.format marks s ++ c :: r) = (s.toList, c :: r) := by
  unfold Printer.format
  split
  next h =>
    rw [String.isEmpty_iff.mp h]
    exact formatText_of_head (by simpa using hcc)
  next => exact (spells_escaped hs hb s).readText_stop hc hcb r

theorem head?_printed_format (marks : List Char) (s : String) (c : Char) (r : List Char) :
    (Printer.format marks s ++ c :: r).head? = some ':' ∨
      (Printer.format marks s ++ c :: r).head? = some c := by
  unfold Printer.format
  split
  · exact .inr rfl
  · exact .inl rfl

theorem Spells.readText_format {stops marks s t : List Char} (h : Spells stops s t) (hs : ':' ∈ stops)
    {c : Char} (hc : c ∈ stops) (hb : c ≠ '\\') (format : String) (r : List Char) :
    readText stops (s ++ (Printer.format marks format ++ c :: r)) =
      (t, Printer.format marks format ++ c :: r) := by
  rcases head?_printed_format marks format c r with hd | hd <;>
    obtain ⟨u, hu⟩ := List.head?_eq_some_iff.mp hd <;> rw [hu]
  · exact h.readText_stop hs (by decide) u
  · exact h.readText_stop hc hb u

theorem firstOf_format_ne {marks formatMarks s t : List Char} (h : Spells marks s t) (hs : ':' ∈ marks)
    {c d : Char} (hc : c ∈ marks) (hb : c ≠ '\\') (hcd : c ≠ d) (hd : d ≠ ':') (format : String)
    (r : List Char) :
    firstOf marks (s ++ (Printer.format formatMarks format ++ c :: r)) ≠ some d := by
  rw [h.firstOf_append]
  rcases head?_printed_format formatMarks format c r with hh | hh <;>
    obtain ⟨u, hu⟩ := List.head?_eq_some_iff.mp hh <;> rw [hu]
  · rw [firstOf_mark hs (by decide)]
    exact fun he => hd (Option.some.inj he).symm
  · rw [firstOf_mark hc hb]
    exact fun he => hcd (Option.some.inj he)

theorem readsReference_printed (ref : Reference) (r : List Char) :
    ReadsReference (escaped nameMarks ref.name ++ (Printer.arguments ref.arguments ++
      (Printer.format formatMarks ref.format ++ '}' :: r))) ref r := by
  obtain ⟨name, format, arguments⟩ := ref
  have hname {stops : List Char} (hs : ∀ c ∈ stops, c ∈ nameMarks) :
      Spells stops (escaped nameMarks name) name.toList := spells_escaped hs (by decide) name
  have hf : formatText formatStops (Printer.format formatMarks format ++ '}' :: r) =
      (format.toList, '}' :: r) :=
    formatText_printed (by decide) (by decide) (by decide) (by decide) (by decide) format r
  cases arguments with
  | some a =>
      generalize Printer.format formatMarks format ++ '}' :: r = r' at hf ⊢
      have ha : readText [')'] (escaped argumentMarks a ++ ')' :: r') = (a.toList, ')' :: r') :=
        (spells_escaped (by decide) (by decide) a).readText_stop (by decide) (by decide) r'
      have hn : readText ['('] (escaped nameMarks name ++ '(' :: (escaped argumentMarks a ++ ')' :: r')) =
          (name.toList, '(' :: (escaped argumentMarks a ++ ')' :: r')) :=
        (hname (by decide)).readText_stop (by decide) (by decide) _
      have hfirst : firstOf ['(', ':', '}'] (escaped nameMarks name ++
          '(' :: (escaped argumentMarks a ++ ')' :: r')) = some '(' := by
        rw [(hname (by decide)).firstOf_append]
        exact firstOf_mark (by decide) (by decide) _
      simpa only [Printer.arguments, String.ofList_toList, List.cons_append, List.append_assoc,
        List.nil_append] using ReadsReference.call hfirst hn ha hf
  | none =>
      have hn : readText nameStops (escaped nameMarks name ++
          (Printer.format formatMarks format ++ '}' :: r)) =
          (name.toList, Printer.format formatMarks format ++ '}' :: r) :=
        (hname (by decide)).readText_format (by decide) (by decide) (by decide) format r
      have hfirst : firstOf ['(', ':', '}'] (escaped nameMarks name ++
          (Printer.format formatMarks format ++ '}' :: r)) ≠ some '(' :=
        firstOf_format_ne (hname (by decide)) (by decide) (by decide) (by decide) (by decide)
          (by decide) format r
      simpa only [Printer.arguments, String.ofList_toList, List.nil_append] using
        ReadsReference.plain hfirst hn hf

theorem readsHead_printed (subject : Reference) (hs : subject.arguments = none)
    (template : Option String) (r : List Char) :
    ReadsHead (Printer.head subject template ++ '{' :: r) template subject r := by
  obtain ⟨name, format, arguments⟩ := subject
  cases hs
  cases template with
  | some t =>
      have ht {stops : List Char} (hs : ∀ c ∈ stops, c ∈ templateMarks) :
          Spells stops (escaped templateMarks t) t.toList := spells_escaped hs (by decide) t
      have hname : Spells templatedNameStops (escaped templateMarks name) name.toList :=
        spells_escaped (by decide) (by decide) name
      have hf : formatText templateStops (Printer.format templateMarks format ++ ')' :: '{' :: r) =
          (format.toList, ')' :: '{' :: r) :=
        formatText_printed (by decide) (by decide) (by decide) (by decide) (by decide) format _
      have hn : readText templatedNameStops (escaped templateMarks name ++
          (Printer.format templateMarks format ++ ')' :: '{' :: r)) =
          (name.toList, Printer.format templateMarks format ++ ')' :: '{' :: r) :=
        hname.readText_format (by decide) (by decide) (by decide) format ('{' :: r)
      rw [Printer.head]
      simp only [List.cons_append, List.append_assoc, List.nil_append]
      generalize Printer.format templateMarks format ++ ')' :: '{' :: r = r' at hf hn ⊢
      have htemplate : readText templateStops (escaped templateMarks t ++
          '(' :: (escaped templateMarks name ++ r')) =
          (t.toList, '(' :: (escaped templateMarks name ++ r')) :=
        (ht (by decide)).readText_stop (by decide) (by decide) _
      have hfirst : firstOf ['(', ':', '{'] (escaped templateMarks t ++
          '(' :: (escaped templateMarks name ++ r')) = some '(' := by
        rw [(ht (by decide)).firstOf_append]
        exact firstOf_mark (by decide) (by decide) _
      simpa only [String.ofList_toList] using ReadsHead.templated hfirst htemplate hn hf
  | none =>
      have hname {stops : List Char} (hs : ∀ c ∈ stops, c ∈ nameMarks) :
          Spells stops (escaped nameMarks name) name.toList := spells_escaped hs (by decide) name
      have hf : formatText formatStops (Printer.format formatMarks format ++ '{' :: r) =
          (format.toList, '{' :: r) :=
        formatText_printed (by decide) (by decide) (by decide) (by decide) (by decide) format r
      have hn : readText nameStops (escaped nameMarks name ++
          (Printer.format formatMarks format ++ '{' :: r)) =
          (name.toList, Printer.format formatMarks format ++ '{' :: r) :=
        (hname (by decide)).readText_format (by decide) (by decide) (by decide) format r
      have hfirst : firstOf ['(', ':', '{'] (escaped nameMarks name ++
          (Printer.format formatMarks format ++ '{' :: r)) ≠ some '(' :=
        firstOf_format_ne (hname (by decide)) (by decide) (by decide) (by decide) (by decide)
          (by decide) format r
      simpa only [Printer.head, String.ofList_toList, List.append_assoc] using
        ReadsHead.plain hfirst hn hf

def textParts (u : List Char) : List Part :=
  if u = [] then [] else [.text (String.ofList u)]

theorem Reads.text_before {s t r r' : List Char} {found : List Part} (ht : Spells textStops s t)
    (hr : ∀ c ∈ r.head?, c ∈ textStops) (h : Reads r (.parts found) r') :
    Reads (s ++ r) (.parts (textParts t ++ found)) r' := by
  have hread : readText textStops (s ++ r) = (t, r) := ht.readText_eq (by decide) hr
  cases s with
  | nil =>
      rw [textParts, if_pos (ht.eq_nil_iff.mpr rfl)]
      exact h
  | cons c s =>
      rw [textParts, if_neg fun hn => List.cons_ne_nil c s (ht.eq_nil_iff.mp hn)]
      have hc : c ∉ textStops := by
        cases ht with
        | plain hc => exact hc
        | escaped => decide
      exact .text hc hread h

def Ends (r : List Char) : Prop :=
  ∀ c ∈ r.head?, c ∈ ['}', '|', '>']

theorem ends_cons {c : Char} (hc : c ∈ ['}', '|', '>']) (r : List Char) : Ends (c :: r) := by
  rintro d ⟨⟩
  exact hc

theorem Ends.head?_mem {r : List Char} (h : Ends r) : ∀ c ∈ r.head?, c ∈ textStops := by
  intro c hc
  have := h c hc
  simp only [List.mem_cons, List.not_mem_nil, or_false] at this
  rcases this with rfl | rfl | rfl <;> decide

theorem Ends.reads {r : List Char} (h : Ends r) : Reads r (.parts []) r := by
  cases r with
  | nil => exact .nil
  | cons c r => exact .stop (h c rfl)

theorem firstOf_escaped_template (s : String) (r : List Char) :
    firstOf conditionStops (escaped templateMarks s ++ r) =
      if '|' ∈ s.toList then some '|' else firstOf conditionStops r := by
  unfold escaped
  induction s.toList with
  | nil => rfl
  | cons c t ih =>
      rw [List.flatMap_cons, List.append_assoc]
      by_cases hc : c ∈ templateMarks
      · have hbar : ¬ '|' = c := by
          rintro rfl
          revert hc
          decide
        rw [if_pos hc, List.cons_append, List.singleton_append, firstOf_escape, ih]
        simp only [List.mem_cons, hbar, false_or]
      · rw [if_neg hc, List.singleton_append]
        by_cases hbar : '|' = c
        · subst hbar
          rw [firstOf_mark (by decide) (by decide), if_pos List.mem_cons_self]
        · have hmark : c ∉ conditionStops := by
            intro h
            simp only [conditionStops, List.mem_cons, List.not_mem_nil, or_false] at h
            rcases h with rfl | rfl | rfl | rfl
            · exact hc (by decide)
            · exact hc (by decide)
            · exact hbar rfl
            · exact hc (by decide)
          rw [firstOf_cons hmark (by rintro rfl; exact hc (by decide)), ih]
          simp only [List.mem_cons, hbar, false_or]

theorem firstOf_head_ne {subject : Reference} {template : Option String} {cases : List Case}
    {nullCase : Option NullCase} {rest : Expression}
    (h : Expression.NoLeadingColon (.switch subject template cases nullCase :: rest)) (r : List Char) :
    firstOf conditionStops (Printer.head subject template ++ '{' :: r) ≠ some ':' := by
  have hbrace (format : String) (hf : format = "") (marks r : List Char) :
      Printer.format marks format ++ r = r := by rw [hf]; rfl
  cases template with
  | none =>
      rw [Printer.head, List.append_assoc, hbrace _ h,
        (spells_escaped (by decide) (by decide) subject.name).firstOf_append,
        firstOf_mark (by decide) (by decide)]
      decide
  | some t =>
      rw [Printer.head]
      simp only [List.append_assoc, List.cons_append]
      rw [firstOf_escaped_template]
      split
      · decide
      next ht =>
        rw [firstOf_cons (by decide) (by decide), firstOf_escaped_template]
        split
        · decide
        next hn =>
          rcases h with hf | hbar | hbar
          · rw [hbrace _ hf, firstOf_cons (by decide) (by decide), List.nil_append,
              firstOf_mark (by decide) (by decide)]
            decide
          · exact (ht hbar).elim
          · exact (hn hbar).elim

/-- A case without a condition is not printed as one with a condition. -/
theorem firstOf_parts_ne {e : Expression} (h : Expression.NoLeadingColon e) (first : Bool)
    {r : List Char} (hr : firstOf conditionStops r ≠ some ':') :
    firstOf conditionStops (Printer.parts .openCase first e ++ r) ≠ some ':' := by
  induction e generalizing first with
  | nil => exact hr
  | cons p e ih =>
      rw [Printer.parts, List.append_assoc]
      rcases p with s | ref | ⟨subject, template, cases, nullCase⟩ | ⟨name, body⟩ | node
      · rw [Printer.part, (spells_text .openCase first (by decide) s).firstOf_append]
        exact ih h false
      · rw [Printer.part, Printer.reference]
        simp only [List.cons_append]
        rw [firstOf_mark (by decide) (by decide)]
        decide
      · rw [Printer.part]
        simp only [List.append_assoc, List.cons_append]
        rw [firstOf_cons (by decide) (by decide)]
        exact firstOf_head_ne h _
      · cases body with
        | some body => exact h.elim
        | none =>
            rw [Printer.part, Printer.groupBody]
            simp only [List.append_assoc, List.cons_append, List.nil_append]
            rw [firstOf_cons (by decide) (by decide),
              (spells_escaped (by decide) (by decide) name).firstOf_append,
              firstOf_cons (by decide) (by decide)]
            exact ih h false
      · exact h.elim

theorem trimStart_printed_condition (s : String) (r : List Char) :
    Text.trimStart (escaped conditionMarks s ++ ':' :: r) =
      escaped conditionMarks (String.ofList (Text.trimStart s.toList)) ++ ':' :: r := by
  unfold escaped
  rw [String.toList_ofList]
  induction s.toList with
  | nil => rfl
  | cons c t ih =>
      by_cases hc : Text.isBlank c = true
      · have hmark : c ∉ conditionMarks := by
          intro h
          simp only [conditionMarks, List.mem_cons, List.not_mem_nil, or_false] at h
          rcases h with rfl | rfl | rfl | rfl | rfl <;> revert hc <;> decide
        have ht : Text.trimStart (c :: t) = Text.trimStart t := List.dropWhile_cons_of_pos hc
        rw [List.flatMap_cons, if_neg hmark, ht, ← ih]
        exact List.dropWhile_cons_of_pos hc
      · have ht : Text.trimStart (c :: t) = c :: t := List.dropWhile_cons_of_neg hc
        rw [ht]
        apply Text.trimStart_of_head?
        rw [List.flatMap_cons]
        split
        · rintro d ⟨⟩
          decide
        · rintro d ⟨⟩
          exact eq_false_of_ne_true hc

def Begins (place : Printer.Place) (c : Char) : Prop :=
  Text.isBlank c = false ∧ c ∉ ['}', '|', '>'] ∧ (place = .openCase → c ≠ '?')

theorem begins_text {place : Printer.Place} {s : String}
    (hs : ∀ c ∈ s.toList.head?, Text.isBlank c = false) :
    ∀ c ∈ (Printer.text place true s).head?, Begins place c := by
  intro c hc
  unfold Printer.text at hc
  split at hc
  · cases hc
    exact ⟨rfl, by decide, fun _ => by decide⟩
  next hp =>
    unfold escaped at hc
    cases ht : s.toList with
    | nil =>
        rw [ht] at hc
        cases hc
    | cons d t =>
        rw [ht, List.flatMap_cons] at hc
        split at hc
        · cases hc
          exact ⟨rfl, by decide, fun _ => by decide⟩
        next hd =>
          obtain rfl := Option.some.inj hc
          refine ⟨hs d (by rw [ht]; rfl), ?_, ?_⟩
          · intro h
            simp only [List.mem_cons, List.not_mem_nil, or_false] at h
            rcases h with rfl | rfl | rfl <;> exact hd (by cases place <;> decide)
          · rintro hplace rfl
            exact hp ⟨rfl, hplace, by rw [ht]; rfl⟩

theorem begins_part (place : Printer.Place) (first : Bool) {p : Part} (hp : p.isText = false)
    (hshaped : p.Shaped) (r : List Char) :
    ∃ c u, Printer.part place first p ++ r = c :: u ∧ c ∈ textStops ∧ Begins place c := by
  cases p with
  | text => cases hp
  | custom => exact hshaped.elim
  | reference ref => exact ⟨'{', _, rfl, by decide, rfl, by decide, fun _ => by decide⟩
  | switch subject template cases nullCase =>
      rw [Printer.part]
      exact ⟨'#', _, rfl, by decide, rfl, by decide, fun _ => by decide⟩
  | group name body =>
      rw [Printer.part]
      exact ⟨'<', _, rfl, by decide, rfl, by decide, fun _ => by decide⟩

theorem begins_quoted {e : Expression} (hsep : Expression.Separated e) (hshaped : ∀ p ∈ e, p.Shaped)
    (place : Printer.Place) :
    ∀ c ∈ (Printer.quoted e (Printer.parts place true e)).head?, Begins place c := by
  unfold Printer.quoted
  split
  · rintro c ⟨⟩
    exact ⟨rfl, by decide, fun _ => by decide⟩
  next hedge =>
    rw [Bool.or_eq_true, not_or] at hedge
    have hother {first : Bool} {q : Part} {e : Expression} (hq : q.isText = false) (hs : q.Shaped) :
        ∀ c ∈ (Printer.parts place first (q :: e)).head?, Begins place c := by
      rw [Printer.parts]
      obtain ⟨c, u, hu, -, hc⟩ := begins_part place first hq hs (Printer.parts place false e)
      rw [hu]
      rintro d ⟨⟩
      exact hc
    cases e with
    | nil => rintro c ⟨⟩
    | cons p e =>
        cases hp : p.isText with
        | false => exact hother hp (hshaped p List.mem_cons_self)
        | true =>
            obtain ⟨s, rfl⟩ : ∃ s, p = .text s := by
              cases p <;> first | exact ⟨_, rfl⟩ | cases hp
            rw [Printer.parts, Printer.part]
            cases ht : Printer.text place true s with
            | cons d u =>
                rintro c ⟨⟩
                refine begins_text ?_ d (by rw [ht]; rfl)
                intro c hc
                have := hedge.1
                rw [Expression.firstChar?, Option.mem_def.mp hc] at this
                rw [Printer.isEdge, Option.any_some, Bool.or_eq_true, not_or] at this
                exact eq_false_of_ne_true this.1
            | nil =>
                cases e with
                | nil => rintro c ⟨⟩
                | cons q e =>
                    exact hother (hsep.head rfl) (hshaped q (List.mem_cons_of_mem _ List.mem_cons_self))

end Phrasebook.Reader
