import Phrasebook.Proofs.Dialect.Spellings

namespace Phrasebook

open Text Connective

inductive Junction where
  | leaf (s : List Char)
  | join (left : Junction) (connective : Connective) (right : Junction)

namespace Junction

def leaves : Junction → List (List Char)
  | leaf s => [s]
  | join left _ right => left.leaves ++ right.leaves

def condition (f : List Char → Condition) : Junction → Condition
  | leaf s => f s
  | join left k right => .connective (left.condition f) k (right.condition f)

def between (k : Connective) : List Char :=
  ' ' :: k.name.toList ++ [' ']

def operand : Junction → List Char
  | leaf s => s
  | join left k right => '(' :: (left.operand ++ between k ++ right.operand) ++ [')']

/-- The text of a junction, with parentheses around each operand that is itself one. -/
def text : Junction → List Char
  | leaf s => s
  | join left k right => left.operand ++ between k ++ right.operand

def chain (first : List Char) : List (Connective × List Char) → Junction
  | [] => leaf first
  | (k, s) :: rest => join (leaf first) k (chain s rest)

def chainText (first : List Char) : List (Connective × List Char) → List Char
  | [] => first
  | (k, s) :: rest => first ++ between k ++ chainText s rest

/-- A text that says one condition: trimmed, without parentheses and without a connective for a word. -/
structure IsLeaf (s : List Char) : Prop where
  ne_nil : s ≠ []
  trimmed : trim s = s
  parentheses : ∀ c ∈ s, c ≠ '(' ∧ c ≠ ')'
  words : ∀ word ∈ words s, ∀ k, ¬ IsWord k word

instance (s : List Char) : Decidable (IsLeaf s) :=
  decidable_of_iff (s ≠ [] ∧ trim s = s ∧ (∀ c ∈ s, c ≠ '(' ∧ c ≠ ')') ∧ ∀ word ∈ words s, ∀ k, ¬ IsWord k word)
    ⟨fun ⟨hne, htrim, hparen, hwords⟩ => ⟨hne, htrim, hparen, hwords⟩,
      fun ⟨hne, htrim, hparen, hwords⟩ => ⟨hne, htrim, hparen, hwords⟩⟩

/-- The texts that a junction may be written as. There may be parentheses around the whole and around
any operand, and blanks inside them; there have to be parentheses around an operand on the left that is
itself joined. The flag says whether a connective stands outside of all parentheses. -/
inductive Written : Bool → Junction → List Char → Prop
  | alone (s : List Char) : Written false (leaf s) s
  | enclosed {bare : Bool} {t : Junction} {s w w' : List Char} : Written bare t s →
      (∀ c ∈ w, isBlank c = true) → (∀ c ∈ w', isBlank c = true) →
      Written false t ('(' :: (w ++ s ++ w') ++ [')'])
  | joined {bare : Bool} {left right : Junction} {k : Connective} {s s' word gap gap' : List Char} :
      Written false left s → IsGap gap → IsWord k word → IsGap gap' → Written bare right s' →
      Written true (join left k right) (s ++ gap ++ word ++ gap' ++ s')

variable {bare : Bool} {t left right : Junction} {k : Connective} {s u : List Char}

theorem forall_mem_leaves_join {p : List Char → Prop} :
    (∀ x ∈ (join left k right).leaves, p x) ↔ (∀ x ∈ left.leaves, p x) ∧ ∀ x ∈ right.leaves, p x :=
  List.forall_mem_append

theorem Written.between (hleft : Written false left s) (k : Connective) (hright : Written bare right u) :
    Written true (join left k right) (s ++ Junction.between k ++ u) := by
  have hassoc : s ++ Junction.between k ++ u = s ++ [' '] ++ k.name.toList ++ [' '] ++ u := by simp [Junction.between]
  rw [hassoc]
  exact .joined hleft isGap_blank (isWord_name k) isGap_blank hright

theorem written_operand (t : Junction) : Written false t t.operand := by
  induction t with
  | leaf s => exact .alone s
  | join left k right ihl ihr =>
      have hblanks : ∀ c ∈ ([] : List Char), isBlank c = true := List.forall_mem_nil _
      have hwritten := (ihl.between k ihr).enclosed hblanks hblanks
      rwa [List.nil_append, List.append_nil] at hwritten

theorem written_text (t : Junction) : ∃ bare, Written bare t t.text := by
  cases t with
  | leaf s => exact ⟨_, .alone s⟩
  | join left k right => exact ⟨_, (written_operand left).between k (written_operand right)⟩

theorem written_chain (first : List Char) (rest : List (Connective × List Char)) :
    ∃ bare, Written bare (chain first rest) (chainText first rest) := by
  induction rest generalizing first with
  | nil => exact ⟨_, .alone first⟩
  | cons found rest ih =>
      obtain ⟨bare, hrest⟩ := ih found.2
      exact ⟨_, (Written.alone first).between found.1 hrest⟩

theorem IsLeaf.isTrimmed (h : IsLeaf s) : IsTrimmed s :=
  h.trimmed ▸ isTrimmed_trim (by rw [h.trimmed]; exact h.ne_nil)

theorem IsLeaf.passes (h : IsLeaf s) : Passes s := by
  refine passes_of_undivided (fun word hword => h.words word (List.mem_cons_of_mem _ hword))
    h.isTrimmed.last (foldl_depthAfter fun hparen => (h.parentheses _ hparen).1 rfl)

theorem Written.balanced (h : Written bare t s) (hleaves : ∀ x ∈ t.leaves, IsLeaf x) : Balanced s := by
  induction h with
  | alone s => exact balanced_of_not_mem (hleaves s (List.mem_singleton_self s)).parentheses
  | enclosed _ hw hw' ih =>
      exact (((balanced_of_blank hw).append (ih hleaves)).append (balanced_of_blank hw')).enclosed
  | joined _ hgap hword hgap' _ ihs ihs' =>
      obtain ⟨hleft, hright⟩ := forall_mem_leaves_join.mp hleaves
      exact ((((ihs hleft).append (balanced_of_blank hgap.blank)).append hword.balanced).append
        (balanced_of_blank hgap'.blank)).append (ihs' hright)

theorem Written.isTrimmed (h : Written bare t s) (hleaves : ∀ x ∈ t.leaves, IsLeaf x) : IsTrimmed s := by
  induction h with
  | alone s => exact (hleaves s (List.mem_singleton_self s)).isTrimmed
  | enclosed => exact isTrimmed_enclosed _
  | joined _ _ _ _ _ ihs ihs' =>
      obtain ⟨hleft, hright⟩ := forall_mem_leaves_join.mp hleaves
      have hassoc (s gap word gap' s' : List Char) :
          s ++ gap ++ word ++ gap' ++ s' = s ++ (gap ++ word ++ gap') ++ s' := by simp
      rw [hassoc]
      exact (ihs hleft).append (ihs' hright) _

theorem Written.balanced_inside {w w' : List Char} (h : Written bare t s) (hleaves : ∀ x ∈ t.leaves, IsLeaf x)
    (hw : ∀ c ∈ w, isBlank c = true) (hw' : ∀ c ∈ w', isBlank c = true) : Balanced (w ++ s ++ w') :=
  ((balanced_of_blank hw).append (h.balanced hleaves)).append (balanced_of_blank hw')

theorem Written.passes (h : Written false t s) (hleaves : ∀ x ∈ t.leaves, IsLeaf x) : Passes s := by
  cases h with
  | alone s => exact (hleaves s (List.mem_singleton_self s)).passes
  | enclosed hs hw hw' => exact (hs.balanced_inside hleaves hw hw').passes_enclosed

/-- A parenthesis at the start of an operand does not close at the end of a longer text. -/
theorem Written.not_closesAtEnd (h : Written false t s) (hleaves : ∀ x ∈ t.leaves, IsLeaf x) {rest : List Char}
    (hrest : rest ≠ []) (hu : s ++ rest = '(' :: u) : closesAtEnd 0 u = false := by
  cases h with
  | alone s =>
      have hleaf := hleaves s (List.mem_singleton_self s)
      obtain ⟨c, s, rfl⟩ := List.exists_cons_of_ne_nil hleaf.ne_nil
      exact ((hleaf.parentheses c List.mem_cons_self).1 (List.cons.inj hu).1).elim
  | @enclosed _ _ s w w' hs hw hw' =>
      have hinside : u = (w ++ s ++ w') ++ (')' :: rest) := by
        have := (List.cons.inj hu).2
        simpa using this.symm
      rw [hinside, closesAtEnd_balanced (hs.balanced_inside hleaves hw hw'), closesAtEnd, if_pos rfl]
      exact Bool.eq_false_iff.mpr fun h => hrest (List.isEmpty_iff.mp h)

theorem Written.split?_join (h : Written bare (join left k right) s)
    (hleaves : ∀ x ∈ (join left k right).leaves, IsLeaf x) :
    ∃ bare' l r, split? 0 (stripParentheses s) = some (l, k, r) ∧ Written false left l ∧ Written bare' right r := by
  generalize ht : join left k right = t at h
  induction h with
  | alone => cases ht
  | @enclosed _ _ s w w' hs hw hw' ih =>
      rw [(hs.balanced_inside (ht ▸ hleaves) hw hw').stripParentheses_enclosed,
        stripParentheses_blanks_append hw s hw']
      exact ih ht
  | @joined _ _ _ _ l r word gap gap' hl hgap hword hgap' hr =>
      cases ht
      obtain ⟨hleft, hright⟩ := forall_mem_leaves_join.mp hleaves
      have hassoc : l ++ gap ++ word ++ gap' ++ r = l ++ (gap ++ word ++ gap') ++ r := by simp
      have hassoc' : l ++ gap ++ word ++ gap' ++ r = l ++ (gap ++ (word ++ (gap' ++ r))) := by simp
      have hself : stripParentheses (l ++ gap ++ word ++ gap' ++ r) = l ++ gap ++ word ++ gap' ++ r := by
        refine stripParentheses_eq_self ?_ fun u hu => ?_
        · rw [hassoc]
          exact ((hl.isTrimmed hleft).append (hr.isTrimmed hright) _).trim_eq
        · rw [hassoc'] at hu
          exact hl.not_closesAtEnd hleft (List.append_ne_nil_of_left_ne_nil hgap.ne_nil _) hu
      refine ⟨_, l, r, ?_, hl, hr⟩
      rw [hself, (hl.passes hleft).split?_join hgap hword hgap', trimStart_of_head? (hr.isTrimmed hright).head]

theorem Written.stripParentheses_leaf {x : List Char} (h : Written bare (leaf x) s) (hx : IsLeaf x) :
    stripParentheses s = x := by
  have hleaves : ∀ y ∈ (Junction.leaf x).leaves, IsLeaf y := fun y hy => List.mem_singleton.mp hy ▸ hx
  generalize ht : Junction.leaf x = t at h
  induction h with
  | alone s =>
      cases ht
      refine stripParentheses_eq_self hx.trimmed ?_
      rintro u rfl
      exact ((hx.parentheses _ List.mem_cons_self).1 rfl).elim
  | @enclosed _ _ s w w' hs hw hw' ih =>
      rw [(hs.balanced_inside (ht ▸ hleaves) hw hw').stripParentheses_enclosed,
        stripParentheses_blanks_append hw s hw']
      exact ih ht
  | joined => cases ht

section

variable {f : List Char → Condition}

/-- A text is bound as what it is divided into, whatever its outermost parentheses. -/
theorem Written.standard_condition_join (h : Written bare (join left k right) s)
    (hleaves : ∀ x ∈ (join left k right).leaves, IsLeaf x)
    (ihl : ∀ bare l site, Written bare left l →
      Dialect.standard.condition site (String.ofList (stripParentheses l)) = .ok (left.condition f))
    (ihr : ∀ bare r site, Written bare right r →
      Dialect.standard.condition site (String.ofList (stripParentheses r)) = .ok (right.condition f))
    (hu : stripParentheses u = stripParentheses s) (site : Site) :
    Dialect.standard.condition site (String.ofList u) = .ok ((join left k right).condition f) := by
  obtain ⟨bare', l, r, hsplit, hl, hr⟩ := h.split?_join hleaves
  rw [← hu] at hsplit
  exact Dialect.standard_condition_connective_iff.mpr
    ⟨l, r, hsplit, ihl false l .connective hl, ihr bare' r .connective hr⟩

theorem Written.standard_condition (hleaves : ∀ x ∈ t.leaves, IsLeaf x)
    (hresolved : ∀ x ∈ t.leaves, Dialect.standard.condition .switchCase (String.ofList x) = .ok (f x))
    (h : Written bare t s) (site : Site) :
    Dialect.standard.condition site (String.ofList (stripParentheses s)) = .ok (t.condition f) := by
  induction t generalizing bare s site with
  | leaf x =>
      rw [h.stripParentheses_leaf (hleaves x (List.mem_singleton_self x))]
      exact Dialect.condition_site (hresolved x (List.mem_singleton_self x)) site
  | join left k right ihl ihr =>
      obtain ⟨hleft, hright⟩ := forall_mem_leaves_join.mp hleaves
      obtain ⟨hleft', hright'⟩ := forall_mem_leaves_join.mp hresolved
      exact h.standard_condition_join hleaves (fun _ _ site hl => ihl hleft hleft' hl site)
        (fun _ _ site hr => ihr hright hright' hr site) (stripParentheses_idem s) site

end

/-- A spelling is bound to the conditions of its leaves, joined as they are joined in it: written with
parentheses around each operand that is itself joined, as a chain without parentheses, which joins from the
right, or with more parentheses and blanks. -/
theorem standard_condition_junction {f : List Char → Condition} {left right : Junction} {k : Connective}
    (hleaves : ∀ x ∈ (join left k right).leaves, IsLeaf x)
    (hresolved : ∀ x ∈ (join left k right).leaves,
      Dialect.standard.condition .switchCase (String.ofList x) = .ok (f x)) (site : Site) :
    Dialect.standard.condition site (String.ofList (join left k right).text) =
        .ok ((join left k right).condition f) ∧
      (∀ first rest, join left k right = chain first rest →
        Dialect.standard.condition site (String.ofList (chainText first rest)) =
          .ok ((join left k right).condition f)) ∧
      ∀ bare s w w', Written bare (join left k right) s → (∀ c ∈ w, isBlank c = true) →
        (∀ c ∈ w', isBlank c = true) →
        Dialect.standard.condition site (String.ofList (w ++ s ++ w')) =
          .ok ((join left k right).condition f) := by
  obtain ⟨hleft, hright⟩ := forall_mem_leaves_join.mp hleaves
  obtain ⟨hleft', hright'⟩ := forall_mem_leaves_join.mp hresolved
  have hwritten {bare : Bool} {s u : List Char} (h : Written bare (join left k right) s)
      (hu : stripParentheses u = stripParentheses s) :=
    h.standard_condition_join hleaves (fun _ _ site hl => hl.standard_condition hleft hleft' site)
      (fun _ _ site hr => hr.standard_condition hright hright' site) hu site
  refine ⟨?_, fun first rest hchain => ?_, fun bare s w w' h hw hw' =>
    hwritten h (stripParentheses_blanks_append hw s hw')⟩
  · obtain ⟨bare, h⟩ := written_text (join left k right)
    exact hwritten h rfl
  · obtain ⟨bare, h⟩ := written_chain first rest
    rw [← hchain] at h
    exact hwritten h rfl

def seating : Junction :=
  join (join (leaf "one".toList) or (leaf "@Rule".toList)) and (leaf "yes, no".toList)

def seatingCondition (s : List Char) : Condition :=
  if s = "one".toList then .plural .one
  else if s = "@Rule".toList then .stored none "Rule" else .oneOf ⟨.strings ["yes", "no"], false⟩

theorem standard_condition_seating :
    Dialect.standard.condition .switchCase "(one or @Rule) and yes, no" =
        .ok (.connective (.connective (.plural .one) .or (.stored none "Rule")) .and
          (.oneOf ⟨.strings ["yes", "no"], false⟩)) ∧
      Dialect.standard.condition .switchCase " ( one  OR @Rule ) and yes, no " =
        .ok (.connective (.connective (.plural .one) .or (.stored none "Rule")) .and
          (.oneOf ⟨.strings ["yes", "no"], false⟩)) := by
  have hleaves : ∀ x ∈ seating.leaves, IsLeaf x := by decide
  have hresolved : ∀ x ∈ seating.leaves,
      Dialect.standard.condition .switchCase (String.ofList x) = .ok (seatingCondition x) := by
    intro x hx
    have hmem : x = "one".toList ∨ x = "@Rule".toList ∨ x = "yes, no".toList := by
      simpa [seating, leaves] using hx
    rcases hmem with rfl | rfl | rfl
    all_goals exact Dialect.standard_condition_of_simple (by decide +kernel) (by decide) rfl _
  obtain ⟨htext, -, hwritten⟩ := standard_condition_junction hleaves hresolved .switchCase
  have hblank : ∀ c ∈ [' '], isBlank c = true := isGap_blank.blank
  have hgap : IsGap [' ', ' '] := ⟨List.cons_ne_nil _ _, by decide⟩
  have hor : IsWord or "OR".toList := by decide
  have hpair := Written.joined (.alone "one".toList) hgap hor isGap_blank (.alone "@Rule".toList)
  have hwhole := (hpair.enclosed hblank hblank).joined isGap_blank (isWord_name and) isGap_blank
    (.alone "yes, no".toList)
  have hcondition : seating.condition seatingCondition =
      .connective (.connective (.plural .one) .or (.stored none "Rule")) .and
        (.oneOf ⟨.strings ["yes", "no"], false⟩) := rfl
  have hspelled : String.ofList seating.text = "(one or @Rule) and yes, no" := by decide
  have hspaced : String.ofList ([' '] ++ ('(' :: ([' '] ++ ("one".toList ++ [' ', ' '] ++ "OR".toList ++
      [' '] ++ "@Rule".toList) ++ [' ']) ++ [')'] ++ [' '] ++ "and".toList ++ [' '] ++ "yes, no".toList) ++
      [' ']) = " ( one  OR @Rule ) and yes, no " := by decide
  rw [← hcondition, ← hspelled, ← hspaced]
  exact ⟨htext, hwritten _ _ _ _ hwhole hblank hblank⟩

end Junction

end Phrasebook
