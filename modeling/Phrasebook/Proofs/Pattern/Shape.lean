import Mathlib.Data.List.Chain
import Phrasebook.Proofs.Text.Blank
import Phrasebook.Proofs.Pattern.Atoms
import Phrasebook.Proofs.Pattern.Grammar
import Phrasebook.Proofs.Pattern.Occurrence
import Phrasebook.Proofs.Pattern.Spelling

namespace Phrasebook

namespace Expression

/-- No colon stands before what ends or nests, so that none is taken for the end of a condition. -/
def NoLeadingColon : Expression → Prop
  | [] => True
  | .text _ :: rest => NoLeadingColon rest
  | .reference _ :: _ => True
  | .switch subject none _ _ :: _ => subject.format = ""
  | .switch subject (some template) _ _ :: _ =>
    subject.format = "" ∨ '|' ∈ template.toList ∨ '|' ∈ subject.name.toList
  | .group _ none :: rest => NoLeadingColon rest
  | .group _ (some _) :: _ => False
  | .custom _ :: _ => False

end Expression

structure Case.Shaped (c : Case) : Prop where
  separated : Expression.Separated c.body
  nonempty : c.body ≠ []
  spelling : ∀ e ∈ c.condition, ∃ s, e = Expression.ofText s
  noLeadingColon : c.condition = none → Expression.NoLeadingColon c.body

structure NullCase.Shaped (n : NullCase) (count : Nat) : Prop where
  separated : Expression.Separated n.body
  position_le : n.position ≤ count

def Part.Shaped : Part → Prop
  | .text _ => True
  | .reference _ => True
  | .switch subject _ cases nullCase =>
    subject.arguments = none ∧ (∀ c ∈ cases, c.Shaped) ∧ ∀ n ∈ nullCase, n.Shaped cases.length
  | .group _ body => ∀ b ∈ body, Expression.Separated b
  | .custom _ => False

namespace Reader

theorem head?_readText_mem (stops s : List Char) : ∀ c ∈ (readText stops s).2.head?, c ∈ stops := by
  fun_induction readText stops s <;> simp_all

theorem Reads.head?_not_isText {s r : List Char} {found : List Part} (h : Reads s (.parts found) r)
    (hs : ∀ c ∈ s.head?, c ∈ textStops) : ∀ p ∈ found.head?, p.isText = false := by
  cases h with
  | text hc => exact (hc (hs _ rfl)).elim
  | reference | switch | group =>
      rintro p ⟨⟩
      rfl
  | nil | stop => rintro p ⟨⟩

theorem Reads.separated {s r : List Char} {found : List Part} (h : Reads s (.parts found) r) :
    Expression.Separated found := by
  generalize hphrase : Phrase.parts found = phrase at h
  induction h generalizing found with
  | nil | stop =>
      cases hphrase
      exact List.isChain_nil
  | reference _ _ ih | switch _ _ _ _ ih | group _ _ _ _ ih =>
      cases hphrase
      refine Expression.separated_cons (ih rfl) ?_
      rintro q - ⟨⟨⟩, -⟩
  | @text c s t r r' more hc ht hmore ih =>
      cases hphrase
      refine Expression.separated_cons (ih rfl) ?_
      rintro q hq ⟨-, htext⟩
      have hr : ∀ d ∈ r.head?, d ∈ textStops := by
        have := head?_readText_mem textStops (c :: s)
        rwa [ht] at this
      rw [hmore.head?_not_isText hr q hq] at htext
      cases htext
  | _ => cases hphrase

def conditionStops : List Char := ['{', '}', '|', ':']

theorem formatText_eq_nil {stops s f r : List Char} (hs : firstOf conditionStops s ≠ some ':')
    (hf : formatText stops s = (f, r)) : f = [] ∧ s = r := by
  have hhead : s.head? ≠ some ':' := by
    rintro h
    obtain ⟨u, rfl⟩ := List.head?_eq_some_iff.mp h
    exact hs (firstOf_mark (by simp [conditionStops]) (by simp) u)
  rw [formatText_of_head hhead] at hf
  cases hf
  exact ⟨rfl, rfl⟩

/-- A text read up to its stops hides no colon; what it may hide is a bar. -/
theorem firstOf_rest_ne_colon {stops s t r : List Char} (ht : readText stops s = (t, r))
    (hstops : ∀ c ∈ conditionStops, c ∉ stops → c ≠ '|' → c = ':')
    (hs : firstOf conditionStops s ≠ some ':') :
    firstOf conditionStops r ≠ some ':' ∨ '|' ∈ t ∧ '|' ∉ stops := by
  have h := firstOf_readText conditionStops stops s
  rw [ht] at h
  rcases h with h | ⟨c, hc, hmark, hstop, hfirst⟩
  · exact .inl (h ▸ hs)
  · by_cases hbar : c = '|'
    · exact .inr ⟨hbar ▸ hc, hbar ▸ hstop⟩
    · have := hstops c hmark hstop hbar
      exact (hs (this ▸ hfirst)).elim

theorem firstOf_rest_eq {stops s t r : List Char} (ht : readText stops s = (t, r))
    (hstops : ∀ c ∈ conditionStops, c ∈ stops) :
    firstOf conditionStops r = firstOf conditionStops s := by
  have h := firstOf_readText conditionStops stops s
  rw [ht] at h
  rcases h with h | ⟨c, -, hmark, hstop, -⟩
  · exact h.symm
  · exact (hstop (hstops c hmark)).elim

theorem ReadsHead.noLeadingColon {s r : List Char} {template : Option String} {subject : Reference}
    (h : ReadsHead s template subject r) (hs : firstOf conditionStops s ≠ some ':') {cases : List Case}
    {nullCase : Option NullCase} {more : Expression} :
    Expression.NoLeadingColon (.switch subject template cases nullCase :: more) := by
  cases h with
  | plain _ hn hf =>
      rw [← firstOf_rest_eq hn (by simp [conditionStops, nameStops])] at hs
      obtain ⟨rfl, -⟩ := formatText_eq_nil hs hf
      rfl
  | templated _ ht hn hf =>
      rcases firstOf_rest_ne_colon ht (by simp [conditionStops, templateStops]) hs with hs | ⟨hbar, -⟩
      swap
      · exact .inr (.inl (by rwa [String.toList_ofList]))
      rw [firstOf_cons (by simp [conditionStops]) (by simp)] at hs
      rcases firstOf_rest_ne_colon hn (by simp [conditionStops, templatedNameStops]) hs with hs | ⟨hbar, -⟩
      · obtain ⟨rfl, -⟩ := formatText_eq_nil hs hf
        exact .inl rfl
      · exact .inr (.inr (by rwa [String.toList_ofList]))

theorem Reads.noLeadingColon {s r : List Char} {found : List Part} (h : Reads s (.parts found) r)
    (hs : firstOf conditionStops s ≠ some ':') : Expression.NoLeadingColon found := by
  generalize hphrase : Phrase.parts found = phrase at h
  induction h generalizing found with
  | nil | stop =>
      cases hphrase
      trivial
  | reference =>
      cases hphrase
      trivial
  | switch hhead =>
      cases hphrase
      rw [firstOf_cons (by simp [conditionStops]) (by simp)] at hs
      exact hhead.noLeadingColon hs
  | @group s n r r₁ r₂ body more hname hbody _ _ ih =>
      cases hphrase
      rw [firstOf_cons (by simp [conditionStops]) (by simp),
        ← firstOf_rest_eq hname (by simp [conditionStops, nameStops])] at hs
      cases hbody with
      | someBody => exact (hs (firstOf_mark (by simp [conditionStops]) (by simp) _)).elim
      | noBody =>
          rw [firstOf_cons (by simp [conditionStops]) (by simp)] at hs
          rw [Expression.NoLeadingColon]
          exact ih hs rfl
  | @text c s t r r' more hc ht _ ih =>
      cases hphrase
      rcases firstOf_rest_ne_colon ht (by simp [conditionStops, textStops]) hs with hs | ⟨-, hbar⟩
      · rw [Expression.NoLeadingColon]
        exact ih hs rfl
      · exact (hbar (by simp [textStops])).elim
  | _ => cases hphrase

def Phrase.Shaped : Phrase → Prop
  | .parts found => ∀ p, Expression.Contains found p → p.Shaped
  | .body found => ∀ b ∈ found, Expression.Separated b ∧ ∀ p, Expression.Contains b p → p.Shaped
  | .cases index cs nullCase | .moreCases index cs nullCase =>
    (∀ c ∈ cs, c.Shaped ∧ ∀ p, Expression.Contains c.body p → p.Shaped) ∧
      ∀ n ∈ nullCase, index ≤ n.position ∧ n.Shaped (index + cs.length) ∧
        ∀ p, Expression.Contains n.body p → p.Shaped

theorem shaped_orEmptyText {found : List Part} (h : ∀ p, Expression.Contains found p → p.Shaped) :
    ∀ p, Expression.Contains (orEmptyText found) p → p.Shaped := by
  cases found with
  | nil =>
      intro p hp
      rcases Expression.contains_cons.mp hp with rfl | ⟨b, hb, -⟩ | hp
      · trivial
      · cases hb
      · exact (Expression.not_contains_nil hp).elim
  | cons q found => exact h

theorem shaped_cons {q : Part} {found : List Part} (hq : q.Shaped)
    (hbodies : ∀ b ∈ q.bodies, ∀ p, Expression.Contains b p → p.Shaped)
    (h : ∀ p, Expression.Contains found p → p.Shaped) :
    ∀ p, Expression.Contains (q :: found) p → p.Shaped := by
  intro p hp
  rcases Expression.contains_cons.mp hp with rfl | ⟨b, hb, hp⟩ | hp
  · exact hq
  · exact hbodies b hb p hp
  · exact h p hp

theorem noLeadingColon_orEmptyText {found : List Part} (h : Expression.NoLeadingColon found) :
    Expression.NoLeadingColon (orEmptyText found) := by
  cases found with
  | nil => trivial
  | cons => exact h

theorem orEmptyText_ne_nil (found : List Part) : orEmptyText found ≠ [] := by
  cases found <;> exact List.cons_ne_nil _ _

theorem Reads.shaped {s r : List Char} {phrase : Phrase} (h : Reads s phrase r) : phrase.Shaped := by
  induction h with
  | nil | stop =>
      intro p hp
      exact (Expression.not_contains_nil hp).elim
  | @reference _ _ _ ref _ _ _ ih =>
      exact shaped_cons (q := .reference ref) trivial (by rintro b ⟨⟩) ih
  | @text _ _ t _ _ _ _ _ _ ih =>
      exact shaped_cons (q := .text (String.ofList t)) trivial (by rintro b ⟨⟩) ih
  | @switch s r r₁ r₂ template subject cs nullCase more hhead _ _ ihcases ihmore =>
      refine shaped_cons ⟨?_, fun c hc => (ihcases.1 c hc).1, fun n hn => ?_⟩ ?_ ihmore
      · cases hhead <;> rfl
      · have := (ihcases.2 n hn).2.1
        rwa [Nat.zero_add] at this
      · intro b hb
        rcases Part.mem_bodies_switch.mp hb with ⟨c, hc, rfl⟩ | ⟨n, hn, rfl⟩
        · exact (ihcases.1 c hc).2
        · exact (ihcases.2 n hn).2.2
  | group _ _ _ ihbody ihmore =>
      refine shaped_cons (fun b hb => (ihbody b hb).1) ?_ ihmore
      intro b hb
      exact (ihbody b (Part.mem_bodies_group.mp hb)).2
  | someBody hparts ih =>
      rintro b ⟨⟩
      exact ⟨hparts.separated.orEmptyText, shaped_orEmptyText ih⟩
  | noBody => rintro b ⟨⟩
  | noCases | close => exact ⟨by rintro c ⟨⟩, by rintro n ⟨⟩⟩
  | bar _ ih => exact ih
  | @nullCase s q r r' i found cs later _ _ hbody _ ihbody ihmore =>
      refine ⟨ihmore.1, ?_⟩
      intro n hn
      cases later with
      | some n' =>
          cases hn
          exact ihmore.2 _ rfl
      | none =>
          cases hn
          exact ⟨Nat.le_refl i, ⟨hbody.separated.orEmptyText, Nat.le_add_right i _⟩,
            shaped_orEmptyText ihbody⟩
  | @case s r r₁ r₂ i spelling found cs later _ _ hcond hbody _ ihbody ihmore =>
      refine ⟨?_, ?_⟩
      · intro c hc
        rcases List.mem_cons.mp hc with rfl | hc
        · refine ⟨⟨hbody.separated.orEmptyText, orEmptyText_ne_nil found, ?_, ?_⟩,
            shaped_orEmptyText ihbody⟩
          · rintro e ⟨⟩
            cases hcond
            exact ⟨_, rfl⟩
          · rintro ⟨⟩
            cases hcond with
            | none hs => exact noLeadingColon_orEmptyText (hbody.noLeadingColon hs)
        · exact ihmore.1 c hc
      · intro n hn
        obtain ⟨hi, hshaped, hparts⟩ := ihmore.2 n hn
        refine ⟨Nat.le_of_succ_le hi, ⟨hshaped.separated, ?_⟩, hparts⟩
        have := hshaped.position_le
        rw [List.length_cons]
        omega

end Reader

def Part.Trimmed : Part → Prop
  | .reference r => r.trimmed = r
  | .switch subject template _ _ => subject.trimmed = subject ∧ template.map Text.trimmed = template
  | .group name _ => Text.trimmed name = name
  | _ => True

theorem Reference.trimmed_idem (r : Reference) : r.trimmed.trimmed = r.trimmed := by
  simp only [Reference.trimmed, Text.trimmed_idem]

theorem Part.normal_trimmed (p : Part) : p.normal.Trimmed := by
  cases p with
  | text | custom => trivial
  | reference r => exact r.trimmed_idem
  | switch subject template cases nullCase =>
      refine ⟨subject.trimmed_idem, ?_⟩
      cases template with
      | none => rfl
      | some t => exact congrArg some (Text.trimmed_idem t)
  | group name body => exact Text.trimmed_idem name

theorem Part.isText_normal (p : Part) : p.normal.isText = p.isText := by
  cases p <;> rfl

namespace Expression

theorem Separated.normal {e : Expression} (h : Separated e) : Separated (normal e) := by
  rw [Expression.normal, normalParts_eq_map]
  refine Separated.orEmptyText (h.congr ?_)
  rw [List.map_map]
  exact List.map_congr_left fun p _ => p.isText_normal

theorem Separated.unquoted {e : Expression} (h : Separated e) : Separated (unquoted e) :=
  h.congr (map_isText_unquoted e)

theorem unquoted_ne_nil {e : Expression} (h : e ≠ []) : Expression.unquoted e ≠ [] := by
  intro he
  have := map_isText_unquoted e
  rw [he] at this
  exact h (List.map_eq_nil_iff.mp this.symm)

theorem NoLeadingColon.mapFirstText {e : Expression} (h : NoLeadingColon e)
    (f : List Char → List Char) : NoLeadingColon (mapFirstText f e) := by
  unfold Expression.mapFirstText
  split
  · exact h
  · exact h

theorem NoLeadingColon.mapLastText {e : Expression} (h : NoLeadingColon e)
    (f : List Char → List Char) : NoLeadingColon (mapLastText f e) := by
  fun_induction Expression.mapLastText f e with
  | case1 => trivial
  | case2 => trivial
  | case3 p rest _ ih =>
      rcases p with _ | _ | ⟨subject, _ | template, cases, nullCase⟩ | ⟨name, _ | body⟩ | _
      · exact ih h
      · trivial
      · exact h
      · exact h
      · exact ih h
      · exact h
      · exact h

theorem NoLeadingColon.unquoted {e : Expression} (h : NoLeadingColon e) :
    NoLeadingColon (unquoted e) := by
  unfold Expression.unquoted
  dsimp only
  split
  · exact (((h.mapFirstText _).mapLastText _).mapFirstText _).mapLastText _
  · exact (h.mapFirstText _).mapLastText _

theorem NoLeadingColon.map_normal {e : Expression} (h : NoLeadingColon e) :
    NoLeadingColon (e.map Part.normal) := by
  have htrim (s : String) (hs : s = "") : Text.trimmed s = "" := by rw [hs]; rfl
  have hbar (s : String) (hs : '|' ∈ s.toList) : '|' ∈ (Text.trimmed s).toList := by
    rw [Text.trimmed, String.toList_ofList]
    exact Text.mem_trim rfl hs
  induction e with
  | nil => trivial
  | cons p e ih =>
      rcases p with _ | _ | ⟨subject, _ | template, cases, nullCase⟩ | ⟨name, _ | body⟩ | _
      · exact ih h
      · trivial
      · exact htrim _ h
      · exact h.imp (htrim _) (Or.imp (hbar _) (hbar _))
      · exact ih h
      · exact h
      · exact h

theorem NoLeadingColon.normal {e : Expression} (h : NoLeadingColon e) : NoLeadingColon (normal e) := by
  rw [Expression.normal, normalParts_eq_map]
  exact Reader.noLeadingColon_orEmptyText h.map_normal

end Expression

theorem Part.Shaped.normal {p : Part} (h : p.Shaped) : p.normal.Shaped := by
  cases p with
  | text | reference => trivial
  | custom => exact h
  | switch subject template cases nullCase =>
      obtain ⟨harguments, hcases, hnull⟩ := h
      rw [Part.normal, normalCases_eq_map, normalNullCase_eq_map]
      refine ⟨harguments, ?_, ?_⟩
      · intro c hc
        obtain ⟨c', hc', rfl⟩ := List.mem_map.mp hc
        have := hcases c' hc'
        exact ⟨this.separated.normal.unquoted,
          Expression.unquoted_ne_nil (Reader.orEmptyText_ne_nil _), this.spelling,
          fun h => (this.noLeadingColon h).normal.unquoted⟩
      · intro n hn
        obtain ⟨n', hn', rfl⟩ := Option.map_eq_some_iff.mp hn
        have := hnull n' hn'
        exact ⟨this.separated.normal.unquoted, by rw [List.length_map]; exact this.position_le⟩
  | group name body =>
      intro b hb
      rw [normalBody_eq_map] at hb
      obtain ⟨b', hb', rfl⟩ := Option.map_eq_some_iff.mp hb
      exact (h b' hb').normal.unquoted

/-- What holds of every expression that parsing returns. -/
structure Expression.Regular (e : Expression) : Prop where
  separated : Separated e
  shaped : ∀ p, Contains e p → p.Shaped
  trimmed : ∀ p, Contains e p → p.Trimmed

namespace Expression

theorem Regular.body {e b : Expression} {p : Part} (h : Regular e) (hp : p ∈ e) (hb : b ∈ p.bodies) :
    Regular b where
  shaped q hq := h.shaped q (.inside hp hb hq)
  trimmed q hq := h.trimmed q (.inside hp hb hq)
  separated := by
    have hs := h.shaped p (.here hp)
    cases p with
    | switch subject template cases nullCase =>
        rcases Part.mem_bodies_switch.mp hb with ⟨c, hc, rfl⟩ | ⟨n, hn, rfl⟩
        · exact (hs.2.1 c hc).separated
        · exact (hs.2.2 n hn).separated
    | group name body => exact hs b (Part.mem_bodies_group.mp hb)
    | _ => cases hb

theorem normal_regular {e : Expression} (hsep : Separated e) (hshaped : ∀ p, Contains e p → p.Shaped) :
    Regular (normal e) where
  separated := hsep.normal
  shaped p hp := by
    rcases hp.exists_of_normal with ⟨s, rfl⟩ | ⟨q, hq, rfl⟩
    · trivial
    · exact (hshaped q hq).normal
  trimmed p hp := by
    rcases hp.exists_of_normal with ⟨s, rfl⟩ | ⟨q, -, rfl⟩
    · trivial
    · exact q.normal_trimmed

theorem parse_eq_ok_iff {pattern : String} {t : Expression} :
    parse pattern = .ok t ↔ ∃ found, Reader.Reads pattern.toList (.parts found) [] ∧ t = normal found := by
  have hnormal (found : List Part) : normal (Reader.orEmptyText found) = normal found := by
    cases found <;> rfl
  rw [parse]
  constructor
  · intro h
    cases hr : read pattern with
    | error e =>
        rw [hr] at h
        cases h
    | ok e =>
        rw [hr] at h
        cases h
        obtain ⟨found, hfound, rfl⟩ := read_eq_ok_iff.mp hr
        exact ⟨found, hfound, hnormal found⟩
  · rintro ⟨found, hfound, rfl⟩
    rw [read_eq_ok_iff.mpr ⟨found, hfound, rfl⟩, ← hnormal found]
    rfl

theorem parse_regular {pattern : String} {t : Expression} (h : parse pattern = .ok t) : Regular t := by
  obtain ⟨found, hfound, rfl⟩ := parse_eq_ok_iff.mp h
  exact normal_regular hfound.separated hfound.shaped

end Expression

end Phrasebook
