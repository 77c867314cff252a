import Phrasebook.Proofs.Pattern.Shape

namespace Phrasebook

def Reference.chars (r : Reference) : List Char :=
  r.name.toList ++ r.format.toList ++ (r.arguments.getD "").toList

/-- Characters a part is written with, apart from the parts inside it and the conditions of cases; only a
group takes an opening bracket. -/
def Part.chars : Part → List Char
  | .text s => s.toList
  | .reference r => r.chars
  | .switch subject template _ _ => subject.chars ++ (template.getD "").toList
  | .group name _ => '<' :: name.toList
  | .custom node => node.kind.toList ++ node.content.toList

def Expression.Within (s : List Char) (e : Expression) : Prop :=
  ∀ p, e.Contains p → p.chars ⊆ s

namespace Expression

variable {s : List Char} {e : Expression}

theorem Within.mono {t : List Char} (h : Within s e) (hst : s ⊆ t) : Within t e :=
  fun p hp => List.Subset.trans (h p hp) hst

theorem within_nil : Within s [] :=
  fun _ hp => (not_contains_nil hp).elim

theorem within_cons {p : Part} :
    Within s (p :: e) ↔ p.chars ⊆ s ∧ (∀ b ∈ p.bodies, Within s b) ∧ Within s e := by
  constructor
  · intro h
    exact ⟨h p (.here List.mem_cons_self), fun b hb q hq => h q (.inside List.mem_cons_self hb hq),
      fun q hq => h q (contains_cons.mpr (.inr (.inr hq)))⟩
  · rintro ⟨hp, hbodies, he⟩ q hq
    rcases contains_cons.mp hq with rfl | ⟨b, hb, hq⟩ | hq
    · exact hp
    · exact hbodies b hb q hq
    · exact he q hq

theorem within_text {t : String} : Within s (.text t :: e) ↔ t.toList ⊆ s ∧ Within s e := by
  rw [within_cons]
  exact and_congr_right fun _ => and_iff_right (by rintro b ⟨⟩)

theorem Within.orEmptyText (h : Within s e) : Within s (Reader.orEmptyText e) := by
  cases e with
  | nil => exact within_text.mpr ⟨List.nil_subset s, within_nil⟩
  | cons p e => exact h

theorem Within.mapFirstText {f : List Char → List Char} (hf : ∀ l, f l ⊆ l) (h : Within s e) :
    Within s (mapFirstText f e) := by
  unfold Expression.mapFirstText
  split
  · rw [within_text] at h ⊢
    rw [String.toList_ofList]
    exact ⟨List.Subset.trans (hf _) h.1, h.2⟩
  · exact h

theorem Within.mapLastText {f : List Char → List Char} (hf : ∀ l, f l ⊆ l) (h : Within s e) :
    Within s (mapLastText f e) := by
  fun_induction Expression.mapLastText f e with
  | case1 => exact h
  | case2 t =>
      rw [within_text] at h ⊢
      rw [String.toList_ofList]
      exact ⟨List.Subset.trans (hf _) h.1, h.2⟩
  | case3 p e _ ih =>
      rw [within_cons] at h ⊢
      exact ⟨h.1, h.2.1, ih h.2.2⟩

theorem Within.unquoted (h : Within s e) : Within s (unquoted e) := by
  have hedges : Within s (Expression.mapLastText Text.trimEnd (Expression.mapFirstText Text.trimStart e)) :=
    (h.mapFirstText Text.trimStart_subset).mapLastText Text.trimEnd_subset
  unfold Expression.unquoted
  dsimp only
  split
  · exact (hedges.mapFirstText fun l => (List.tail_suffix l).subset).mapLastText
      fun l => (List.dropLast_prefix l).subset
  · exact hedges

end Expression

theorem Text.append_subset_append {s s' t t' : List Char} (hs : s ⊆ s') (ht : t ⊆ t') : s ++ t ⊆ s' ++ t' :=
  List.append_subset.mpr ⟨List.subset_append_of_subset_left t' hs, List.subset_append_of_subset_right s' ht⟩

theorem Reference.chars_trimmed (r : Reference) : r.trimmed.chars ⊆ r.chars :=
  Text.append_subset_append (Text.append_subset_append (Text.toList_trimmed_subset r.name)
    (Text.toList_trimmed_subset r.format)) (List.Subset.refl _)

theorem Part.chars_normal (p : Part) : p.normal.chars ⊆ p.chars := by
  cases p with
  | text | custom => exact List.Subset.refl _
  | reference r => exact r.chars_trimmed
  | switch subject template cases nullCase =>
      rw [Part.normal, Part.chars, Part.chars]
      refine Text.append_subset_append subject.chars_trimmed ?_
      cases template with
      | none => exact List.Subset.refl _
      | some template => exact Text.toList_trimmed_subset template
  | group name body => exact List.cons_subset_cons _ (Text.toList_trimmed_subset name)

namespace Expression

theorem Within.normal {s : List Char} {e : Expression} (h : Within s e) : Within s (normal e) := by
  induction e using Expression.induction with
  | step e ih =>
      have hparts : Within s (e.map Part.normal) := by
        intro p hp
        rcases contains_iff.mp hp with hp | ⟨q, hq, b, hb, hp⟩
        · obtain ⟨q, hq, rfl⟩ := List.mem_map.mp hp
          exact List.Subset.trans q.chars_normal (h q (.here hq))
        · obtain ⟨q', hq', rfl⟩ := List.mem_map.mp hq
          obtain ⟨b', hb', rfl⟩ := exists_of_mem_bodies_normal hb
          exact (ih q' hq' b' hb' fun r hr => h r (.inside hq' hb' hr)).unquoted p hp
      rw [Expression.normal, normalParts_eq_map]
      exact hparts.orEmptyText

end Expression

namespace Reader

theorem readText_subset {stops s t r : List Char} (h : readText stops s = (t, r)) : t ⊆ s ∧ r ⊆ s := by
  fun_induction readText stops s generalizing t r with
  | case1 | case2 | case4 =>
      cases h
      simp
  | case3 c rest text' rest' heq ih | case5 c rest _ _ _ text' rest' heq ih =>
      cases h
      obtain ⟨htext, hrest⟩ := ih heq
      constructor
      · intro d hd
        rcases List.mem_cons.mp hd with rfl | hd
        · simp
        · simp [htext hd]
      · intro d hd
        simp [hrest hd]

theorem formatText_subset {stops s t r : List Char} (h : formatText stops s = (t, r)) : t ⊆ s ∧ r ⊆ s := by
  unfold formatText at h
  split at h
  next s =>
    obtain ⟨ht, hr⟩ := readText_subset h
    exact ⟨List.subset_cons_of_subset _ ht, List.subset_cons_of_subset _ hr⟩
  next =>
    cases h
    exact ⟨List.nil_subset _, List.Subset.refl _⟩

theorem ReadsReference.subset {s r : List Char} {ref : Reference} (h : ReadsReference s ref r) :
    ref.chars ⊆ s ∧ r ⊆ s := by
  cases h with
  | call _ hn ha hf =>
      obtain ⟨hname, hn⟩ := readText_subset hn
      obtain ⟨harguments, ha⟩ := readText_subset ha
      obtain ⟨hformat, hf⟩ := formatText_subset hf
      have htail := List.Subset.trans (List.tail_suffix _).subset hn
      have hafter := List.Subset.trans (List.subset_of_cons_subset ha) htail
      refine ⟨?_, List.Subset.trans (List.subset_of_cons_subset hf) hafter⟩
      simp only [Reference.chars, List.append_subset, Option.getD_some, String.toList_ofList]
      exact ⟨⟨hname, List.Subset.trans hformat hafter⟩, List.Subset.trans harguments htail⟩
  | plain _ hn hf =>
      obtain ⟨hname, hn⟩ := readText_subset hn
      obtain ⟨hformat, hf⟩ := formatText_subset hf
      refine ⟨?_, List.Subset.trans (List.subset_of_cons_subset hf) hn⟩
      simp only [Reference.chars, List.append_subset, String.toList_ofList]
      exact ⟨⟨hname, List.Subset.trans hformat hn⟩, List.nil_subset s⟩

theorem ReadsHead.subset {s r : List Char} {template : Option String} {subject : Reference}
    (h : ReadsHead s template subject r) : subject.chars ++ (template.getD "").toList ⊆ s ∧ r ⊆ s := by
  cases h with
  | templated _ ht hn hf =>
      obtain ⟨htemplate, ht⟩ := readText_subset ht
      obtain ⟨hname, hn⟩ := readText_subset hn
      obtain ⟨hformat, hf⟩ := formatText_subset hf
      have hafter := List.subset_of_cons_subset ht
      have hrest := List.Subset.trans hn hafter
      refine ⟨?_, List.Subset.trans (List.subset_of_cons_subset (List.subset_of_cons_subset hf)) hrest⟩
      simp only [Reference.chars, List.append_subset, Option.getD_some, String.toList_ofList]
      exact ⟨⟨⟨List.Subset.trans hname hafter, List.Subset.trans hformat hrest⟩, List.nil_subset s⟩, htemplate⟩
  | plain _ hn hf =>
      obtain ⟨hname, hn⟩ := readText_subset hn
      obtain ⟨hformat, hf⟩ := formatText_subset hf
      refine ⟨?_, List.Subset.trans (List.subset_of_cons_subset hf) hn⟩
      simp only [Reference.chars, List.append_subset, String.toList_ofList]
      exact ⟨⟨⟨hname, List.Subset.trans hformat hn⟩, List.nil_subset s⟩, List.nil_subset s⟩

theorem ReadsCondition.subset {s r : List Char} {spelling : Option Expression} (h : ReadsCondition s spelling r) :
    r ⊆ s := by
  cases h with
  | some _ ht => exact fun c hc => (readText_subset ht).2 (List.mem_of_mem_tail hc)
  | none => exact List.Subset.refl _

def Phrase.expressions : Phrase → List Expression
  | .parts found => [found]
  | .body found => found.toList
  | .cases _ cs nullCase | .moreCases _ cs nullCase => cs.map Case.body ++ (nullCase.map NullCase.body).toList

def Phrase.Within (s : List Char) (phrase : Phrase) : Prop :=
  ∀ e ∈ phrase.expressions, e.Within s

theorem Phrase.Within.mono {s t : List Char} {phrase : Phrase} (h : phrase.Within s) (hst : s ⊆ t) : phrase.Within t :=
  fun e he => (h e he).mono hst

theorem within_parts {s : List Char} {found : List Part} : (Phrase.parts found).Within s ↔ Expression.Within s found :=
  List.forall_mem_singleton

theorem within_parts_cons {s : List Char} {p : Part} {more : List Part} (hp : p.chars ⊆ s)
    (hbodies : ∀ b ∈ p.bodies, Expression.Within s b) (hmore : (Phrase.parts more).Within s) :
    (Phrase.parts (p :: more)).Within s :=
  within_parts.mpr (Expression.within_cons.mpr ⟨hp, hbodies, within_parts.mp hmore⟩)

theorem within_cases {s : List Char} {i : Nat} {cs : List Case} {nullCase : Option NullCase} :
    (Phrase.cases i cs nullCase).Within s ↔
      (∀ c ∈ cs, Expression.Within s c.body) ∧ ∀ n ∈ nullCase, Expression.Within s n.body := by
  rw [Phrase.Within, Phrase.expressions, List.forall_mem_append, List.forall_mem_map]
  refine and_congr_right fun _ => ?_
  cases nullCase <;> simp

theorem within_moreCases {s : List Char} {i : Nat} {cs : List Case} {nullCase : Option NullCase} :
    (Phrase.moreCases i cs nullCase).Within s ↔
      (∀ c ∈ cs, Expression.Within s c.body) ∧ ∀ n ∈ nullCase, Expression.Within s n.body :=
  within_cases (i := i)

/-- Reading takes from the text what it writes the parts with, and leaves what is left of it. -/
theorem Reads.within {s r : List Char} {phrase : Phrase} (h : Reads s phrase r) : phrase.Within s ∧ r ⊆ s := by
  induction h with
  | nil | stop => exact ⟨within_parts.mpr Expression.within_nil, List.Subset.refl _⟩
  | reference href _ ih =>
      obtain ⟨hchars, hr⟩ := href.subset
      have hs := List.subset_cons_of_subset '{' hr
      exact ⟨within_parts_cons (List.subset_cons_of_subset _ hchars) (by rintro b ⟨⟩) (ih.1.mono hs),
        List.Subset.trans ih.2 hs⟩
  | switch hhead _ _ ihcases ihmore =>
      obtain ⟨hchars, hr⟩ := hhead.subset
      have hs := List.subset_cons_of_subset '#' hr
      have hrest := List.Subset.trans ihcases.2 hs
      refine ⟨within_parts_cons (List.subset_cons_of_subset _ hchars) (fun b hb => ?_) (ihmore.1.mono hrest),
        List.Subset.trans ihmore.2 hrest⟩
      exact ihcases.1.mono hs b hb
  | group hname _ _ ihbody ihmore =>
      obtain ⟨hchars, hr⟩ := readText_subset hname
      have hs := List.subset_cons_of_subset '<' hr
      have hrest := List.Subset.trans (List.subset_of_cons_subset ihbody.2) hs
      refine ⟨within_parts_cons ?_ (fun b hb => ?_) (ihmore.1.mono hrest), List.Subset.trans ihmore.2 hrest⟩
      · rw [Part.chars, String.toList_ofList]
        exact List.cons_subset_cons _ hchars
      · exact ihbody.1.mono hs b hb
  | text _ ht _ ih =>
      obtain ⟨hchars, hr⟩ := readText_subset ht
      refine ⟨within_parts_cons ?_ (by rintro b ⟨⟩) (ih.1.mono hr), List.Subset.trans ih.2 hr⟩
      rw [Part.chars, String.toList_ofList]
      exact hchars
  | someBody _ ih =>
      refine ⟨List.forall_mem_singleton.mpr ?_, List.subset_cons_of_subset _ ih.2⟩
      exact (within_parts.mp ih.1).orEmptyText.mono (List.subset_cons_self _ _)
  | noBody => exact ⟨by rintro e ⟨⟩, List.Subset.refl _⟩
  | noCases => exact ⟨by rintro e ⟨⟩, List.subset_cons_self _ _⟩
  | close => exact ⟨by rintro e ⟨⟩, List.subset_cons_self _ _⟩
  | bar _ ih => exact ⟨ih.1.mono (List.subset_cons_self _ _), List.subset_cons_of_subset _ ih.2⟩
  | @nullCase s q r r' i found cs later _ hq _ _ ihbody ihmore =>
      have hbody : Text.trimStart q ⊆ s := by
        have hstart := Text.trimStart_subset s
        rw [hq] at hstart
        exact List.Subset.trans (Text.trimStart_subset q) (List.subset_of_cons_subset hstart)
      have hrest := List.Subset.trans ihbody.2 hbody
      obtain ⟨hcases, hlater⟩ := within_moreCases.mp (ihmore.1.mono hrest)
      refine ⟨within_cases.mpr ⟨hcases, fun n hn => ?_⟩, List.Subset.trans ihmore.2 hrest⟩
      cases later with
      | some n' =>
          cases hn
          exact hlater _ rfl
      | none =>
          cases hn
          exact (within_parts.mp ihbody.1).orEmptyText.mono hbody
  | case _ _ hcond _ _ ihbody ihmore =>
      have hbody := List.Subset.trans hcond.subset (Text.trimStart_subset _)
      have hrest := List.Subset.trans ihbody.2 hbody
      obtain ⟨hcases, hlater⟩ := within_moreCases.mp (ihmore.1.mono hrest)
      refine ⟨within_cases.mpr ⟨List.forall_mem_cons.mpr ⟨?_, hcases⟩, hlater⟩, List.Subset.trans ihmore.2 hrest⟩
      exact (within_parts.mp ihbody.1).orEmptyText.mono hbody

end Reader

theorem Expression.within_of_parse {pattern : String} {e : Expression} (h : parse pattern = .ok e) :
    e.Within pattern.toList := by
  obtain ⟨found, hfound, rfl⟩ := parse_eq_ok_iff.mp h
  exact (Reader.within_parts.mp hfound.within.1).normal

end Phrasebook
