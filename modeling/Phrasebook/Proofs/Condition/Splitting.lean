import Phrasebook.Condition.Connective
import Phrasebook.Proofs.Text.Words

namespace Phrasebook

open Text

namespace Connective

def IsWord (k : Connective) (word : List Char) : Prop :=
  lowerAscii word = k.name.toList

/-- No word after the first is a connective. -/
def Undivided (s : List Char) : Prop :=
  ∀ word ∈ laterWords s, ∀ k, ¬ IsWord k word

instance (k : Connective) (word : List Char) : Decidable (IsWord k word) :=
  inferInstanceAs (Decidable (_ = _))

instance (word : List Char) : Decidable (∀ k, ¬ IsWord k word) :=
  decidable_of_iff (¬ IsWord and word ∧ ¬ IsWord or word)
    ⟨fun h k => by cases k; exacts [h.1, h.2], fun h => ⟨h and, h or⟩⟩

instance (s : List Char) : Decidable (Undivided s) :=
  inferInstanceAs (Decidable (∀ _ ∈ _, _))

/-- A text in which each parenthesis has its counterpart. -/
inductive Balanced : List Char → Prop
  | nil : Balanced []
  | other {c : Char} {s : List Char} : c ≠ '(' → c ≠ ')' → Balanced s → Balanced (c :: s)
  | nest {s t : List Char} : Balanced s → Balanced t → Balanced ('(' :: s ++ ')' :: t)

variable {s t rest word gap gap' : List Char} {depth : Nat} {k : Connective} {b : Char}

theorem isWord_name (k : Connective) : IsWord k k.name.toList := by
  cases k <;> rfl

theorem not_mem_name (k : Connective) : '(' ∉ k.name.toList := by
  cases k <;> decide

theorem IsWord.toLower_mem {c : Char} (h : IsWord k word) (hc : c ∈ word) : c.toLower ∈ k.name.toList :=
  h ▸ List.mem_map_of_mem hc

theorem IsWord.blank_free (h : IsWord k word) : ∀ c ∈ word, isBlank c = false := by
  have hletters : ∀ d ∈ k.name.toList, isBlank d = false := by cases k <;> decide
  intro c hc
  by_contra hblank
  rw [Bool.not_eq_false] at hblank
  have hmem := h.toLower_mem hc
  rw [toLower_of_isBlank hblank] at hmem
  rw [hletters c hmem] at hblank
  cases hblank

theorem IsWord.ne_nil (h : IsWord k word) : word ≠ [] := by
  rintro rfl
  cases k <;> cases h

theorem IsWord.isTrimmed (h : IsWord k word) : IsTrimmed word := by
  refine ⟨h.ne_nil, fun c hc => ?_, fun c hc => ?_⟩
  · exact h.blank_free c (List.mem_of_mem_head? hc)
  · exact h.blank_free c (List.mem_of_mem_getLast? hc)

theorem IsWord.eq {k' : Connective} (h : IsWord k word) (h' : IsWord k' word) : k = k' := by
  have hnames : k.name.toList = k'.name.toList := h.symm.trans h'
  revert hnames
  cases k <;> cases k' <;> decide

theorem afterWord?_eq_some_iff (hword : ∀ w ∈ word, isBlank w = false) :
    afterWord? word s = some rest ↔
      lowerAscii (firstWord s) = word ∧ afterFirst s ≠ [] ∧ trimStart (afterFirst s) = rest := by
  induction word generalizing s with
  | nil =>
      cases s with
      | nil => simp [afterWord?, afterFirst]
      | cons c s =>
          rw [afterWord?]
          cases hc : isBlank c with
          | true => simp [firstWord_blank hc, afterFirst_blank hc, lowerAscii, trimStart, hc]
          | false => simp [firstWord_cons hc, lowerAscii]
  | cons w word ih =>
      rw [List.forall_mem_cons] at hword
      cases s with
      | nil => simp [afterWord?, afterFirst]
      | cons c s =>
          rw [afterWord?]
          cases hc : isBlank c with
          | true =>
              have hne : c.toLower ≠ w := by
                rintro rfl
                rw [toLower_of_isBlank hc, hc] at hword
                cases hword.1
              simp [firstWord_blank hc, lowerAscii, hne]
          | false =>
              rw [Option.ite_none_right_eq_some, ih hword.2, firstWord_cons hc, afterFirst_cons hc]
              simp [lowerAscii, and_assoc]

/-- A connective is found where the first word, after blanks, is one and something follows it. -/
theorem at?_eq_some_iff :
    at? s = some (k, rest) ↔ IsWord k (firstWord (trimStart s)) ∧ afterFirst (trimStart s) ≠ [] ∧
      trimStart (afterFirst (trimStart s)) = rest := by
  have hand {r : List Char} : afterWord? ['a', 'n', 'd'] (trimStart s) = some r ↔ _ :=
    afterWord?_eq_some_iff (by decide)
  have hor {r : List Char} : afterWord? ['o', 'r'] (trimStart s) = some r ↔ _ :=
    afterWord?_eq_some_iff (by decide)
  rw [at?]
  split
  next right hright =>
    obtain ⟨hword, hne, rfl⟩ := hand.mp hright
    constructor
    · rintro ⟨⟩
      exact ⟨hword, hne, rfl⟩
    · rintro ⟨hk, -, rfl⟩
      have heq : k = and := hk.eq hword
      rw [heq]
  next hnone =>
    rw [Option.map_eq_some_iff]
    constructor
    · rintro ⟨right, hright, ⟨⟩⟩
      exact hor.mp hright
    · rintro ⟨hk, hne, rfl⟩
      cases k with
      | and =>
          rw [hand.mpr ⟨hk, hne, rfl⟩] at hnone
          cases hnone
      | or => exact ⟨_, hor.mpr ⟨hk, hne, rfl⟩, rfl⟩

theorem at?_eq_none_iff :
    at? s = none ↔ afterFirst (trimStart s) ≠ [] → ∀ k, ¬ IsWord k (firstWord (trimStart s)) := by
  rw [Option.eq_none_iff_forall_ne_some]
  constructor
  · intro h hne k hk
    exact h _ (at?_eq_some_iff.mpr ⟨hk, hne, rfl⟩)
  · rintro h ⟨k, rest⟩ hsome
    obtain ⟨hk, hne, -⟩ := at?_eq_some_iff.mp hsome
    exact h hne k hk

def onto (passed : List Char) (found : List Char × Connective × List Char) :
    List Char × Connective × List Char :=
  (passed ++ found.1, found.2)

theorem split?_cons {c : Char} (h : here? depth (c :: s) = none) :
    split? depth (c :: s) = (split? (depthAfter depth c) s).map (onto [c]) := by
  rw [split?, h]
  rfl

theorem here?_eq_none_of_split? {c : Char} (h : split? depth (c :: s) = none) : here? depth (c :: s) = none := by
  rw [split?] at h
  cases hhere : here? depth (c :: s) with
  | none => rfl
  | some found =>
      rw [hhere] at h
      cases h

theorem here?_inside {c : Char} : here? (depth + 1) (c :: s) = none :=
  if_neg fun h => Nat.succ_ne_zero depth h.2

theorem depthAfter_zero {c : Char} (hc : c ≠ '(') : depthAfter 0 c = 0 := by
  rw [depthAfter, if_neg hc]
  split <;> rfl

theorem here?_of_not_blank {c : Char} (hc : isBlank c = false) (s : List Char) : here? depth (c :: s) = none := by
  rw [here?, if_neg]
  rintro ⟨hblank, -⟩
  rw [List.head?_cons, Option.any_some, hc] at hblank
  cases hblank

theorem here?_of_blank {c : Char} (hc : isBlank c = true) (s : List Char) : here? 0 (c :: s) = at? s := by
  rw [here?, if_pos ⟨hc, rfl⟩, at?, at?, trimStart, List.dropWhile_cons_of_pos hc, trimStart]

theorem split?_append (hs : Undivided s) (hlast : ∀ c ∈ s.getLast?, isBlank c = false)
    (hrest : ∀ c ∈ rest.head?, isBlank c = true) (depth : Nat) :
    split? depth (s ++ rest) = (split? (s.foldl depthAfter depth) rest).map (onto s) := by
  induction s generalizing depth with
  | nil => exact Option.map_id'.symm
  | cons c s ih =>
      have hlater : Undivided s := fun word hword => hs word (laterWords_subset_cons c s hword)
      have hlast' := getLast?_not_blank_tail hlast
      have hnone : here? depth (c :: (s ++ rest)) = none := by
        cases hc : isBlank c with
        | false => exact here?_of_not_blank hc _
        | true =>
            cases depth with
            | succ depth => exact here?_inside
            | zero =>
                rw [here?_of_blank hc, at?_eq_none_iff]
                intro _
                exact hs _ (firstWord_trimStart_mem_laterWords hc (tail_ne_nil hc hlast) hlast' hrest)
      rw [List.cons_append, split?_cons hnone, ih hlater hlast', Option.map_map]
      rfl

theorem split?_eq_none_of_undivided (hs : IsTrimmed s) (h : Undivided s) : split? 0 s = none := by
  have hnil : ∀ c ∈ ([] : List Char).head?, isBlank c = true := nofun
  have hend := split?_append h hs.last hnil 0
  rwa [List.append_nil] at hend

theorem split?_eq_none_of_not_blank {s : List Char} (h : ∀ c ∈ s, isBlank c = false) (depth : Nat) :
    split? depth s = none := by
  induction s generalizing depth with
  | nil => rfl
  | cons c s ih =>
      rw [List.forall_mem_cons] at h
      rw [split?_cons (here?_of_not_blank h.1 s), ih h.2]
      rfl

theorem split?_blanks_append (hgap : ∀ c ∈ gap, isBlank c = true) (hat : at? s = none) :
    split? 0 (gap ++ s) = (split? 0 s).map (onto gap) := by
  induction gap with
  | nil => exact Option.map_id'.symm
  | cons c gap ih =>
      rw [List.forall_mem_cons] at hgap
      have htrim : trimStart (gap ++ s) = trimStart s := trimStart_blanks_append hgap.2 s
      have hnone : at? (gap ++ s) = none := by
        rw [at?_eq_none_iff] at hat ⊢
        rwa [htrim]
      have hdepth : depthAfter 0 c = 0 := depthAfter_zero (by rintro rfl; cases hgap.1)
      rw [List.cons_append, split?_cons ((here?_of_blank hgap.1 _).trans hnone), hdepth, ih hgap.2, Option.map_map]
      rfl

/-- What follows a connective that is one only because something follows the text. -/
theorem at?_rest_of_append {found : Connective × List Char} (hs : s ≠ [])
    (hlast : ∀ c ∈ s.getLast?, isBlank c = false) (hnone : at? s = none) (hb : isBlank b = true)
    (h : at? (s ++ b :: rest) = some found) : found = (found.1, trimStart (b :: rest)) := by
  have hrest : ∀ c ∈ (b :: rest).head?, isBlank c = true := fun c hc => Option.some.inj hc ▸ hb
  obtain ⟨hword, -, hright⟩ := at?_eq_some_iff.mp (show at? (s ++ b :: rest) = some (found.1, found.2) from h)
  rw [trimStart_append (trimStart_ne_nil hs hlast)] at hword hright
  rw [firstWord_append _ hrest] at hword
  have hend : afterFirst (trimStart s) = [] := by
    by_contra hne
    exact at?_eq_none_iff.mp hnone hne found.1 hword
  rw [afterFirst_append (afterFirst_eq_nil_iff.mp hend) hrest] at hright
  rw [hright]

theorem not_isWord_firstWord_of_at? (hb : isBlank b = true) (h : at? (s ++ b :: rest) = none) (k : Connective) :
    ¬ IsWord k (firstWord s) := by
  intro hword
  have hrest : ∀ c ∈ (b :: rest).head?, isBlank c = true := fun c hc => Option.some.inj hc ▸ hb
  have hhead : ∀ c ∈ s.head?, isBlank c = false := by
    cases s with
    | nil => nofun
    | cons c s =>
        rintro _ ⟨⟩
        by_contra hblank
        rw [Bool.not_eq_false] at hblank
        exact hword.ne_nil (firstWord_blank hblank s)
  have htrim : trimStart (s ++ b :: rest) = s ++ b :: rest := by
    apply trimStart_of_head?
    cases s with
    | nil => exact (hword.ne_nil rfl).elim
    | cons c s => exact hhead
  rw [at?_eq_none_iff, htrim, firstWord_append _ hrest] at h
  refine h ?_ k hword
  rw [Ne, afterFirst_eq_nil_iff]
  intro hall
  have := hall b (by simp)
  rw [hb] at this
  cases this

/-- A connective that ends a text divides it as soon as something follows. -/
theorem split?_append_of_divided (hparen : '(' ∉ s) (hsplit : split? 0 s = none) (hs : ¬ Undivided s)
    (hlast : ∀ c ∈ s.getLast?, isBlank c = false) (hb : isBlank b = true) (rest : List Char) :
    ∃ left k, split? 0 (s ++ b :: rest) = some (left, k, trimStart (b :: rest)) := by
  induction s with
  | nil => exact (hs (List.forall_mem_nil _)).elim
  | cons c s ih =>
      rw [List.mem_cons, not_or] at hparen
      have hdepth := depthAfter_zero (Ne.symm hparen.1)
      have hlast' := getLast?_not_blank_tail hlast
      have hhere : here? 0 (c :: s) = none := here?_eq_none_of_split? hsplit
      rw [split?_cons hhere, hdepth, Option.map_eq_none_iff] at hsplit
      cases hc : isBlank c with
      | false =>
          have hlater : ¬ Undivided s := by rwa [Undivided, laterWords, hc, if_neg Bool.false_ne_true] at hs
          obtain ⟨left, k, hfound⟩ := ih hparen.2 hsplit hlater hlast'
          rw [List.cons_append, split?_cons (here?_of_not_blank hc _), hdepth, hfound]
          exact ⟨c :: left, k, rfl⟩
      | true =>
          rw [here?_of_blank hc] at hhere
          rw [List.cons_append]
          -- either the connective follows this blank, and the text ends with it, or it comes later
          cases hat : at? (s ++ b :: rest) with
          | some found =>
              refine ⟨[], found.1, ?_⟩
              rw [split?, here?_of_blank hc, hat, at?_rest_of_append (tail_ne_nil hc hlast) hlast' hhere hb hat]
              rfl
          | none =>
              have hlater : ¬ Undivided s := by
                intro hlater
                apply hs
                rw [Undivided, laterWords, if_pos hc, List.forall_mem_cons]
                exact ⟨not_isWord_firstWord_of_at? hb hat, hlater⟩
              obtain ⟨left, k, hfound⟩ := ih hparen.2 hsplit hlater hlast'
              rw [split?_cons ((here?_of_blank hc _).trans hat), hdepth, hfound]
              exact ⟨c :: left, k, rfl⟩

/-- Between parentheses nothing divides a text. -/
theorem split?_balanced (h : Balanced s) (depth : Nat) (rest : List Char) :
    split? (depth + 1) (s ++ rest) = (split? (depth + 1) rest).map (onto s) := by
  induction h generalizing depth rest with
  | nil => exact Option.map_id'.symm
  | @other c s hopen hclose _ ih =>
      have hdepth : depthAfter (depth + 1) c = depth + 1 := by rw [depthAfter, if_neg hopen, if_neg hclose]
      rw [List.cons_append, split?_cons here?_inside, hdepth, ih, Option.map_map]
      rfl
  | @nest s t _ _ ihs iht =>
      have hassoc : '(' :: s ++ ')' :: t ++ rest = '(' :: (s ++ ')' :: (t ++ rest)) := by simp
      have hopen : depthAfter (depth + 1) '(' = depth + 1 + 1 := rfl
      have hclose : depthAfter (depth + 1 + 1) ')' = depth + 1 := rfl
      rw [hassoc, split?_cons here?_inside, hopen, ihs, split?_cons here?_inside,
        hclose, iht, Option.map_map, Option.map_map, Option.map_map]
      refine congrArg (Option.map · _) (funext fun found => ?_)
      simp [onto]

theorem Balanced.append (hs : Balanced s) (ht : Balanced t) : Balanced (s ++ t) := by
  induction hs with
  | nil => exact ht
  | other hopen hclose _ ih => exact .other hopen hclose ih
  | @nest u v hu _ _ ih =>
      have hassoc : '(' :: u ++ ')' :: v ++ t = '(' :: u ++ ')' :: (v ++ t) := by simp
      rw [hassoc]
      exact .nest hu ih

theorem Balanced.enclosed (hs : Balanced s) : Balanced ('(' :: s ++ [')']) :=
  .nest hs .nil

theorem balanced_of_not_mem (h : ∀ c ∈ s, c ≠ '(' ∧ c ≠ ')') : Balanced s := by
  induction s with
  | nil => exact .nil
  | cons c s ih =>
      rw [List.forall_mem_cons] at h
      exact .other h.1.1 h.1.2 (ih h.2)

theorem balanced_of_blank (h : ∀ c ∈ s, isBlank c = true) : Balanced s := by
  refine balanced_of_not_mem fun c hc => ⟨?_, ?_⟩
  all_goals
    rintro rfl
    cases h _ hc

theorem IsWord.balanced (h : IsWord k word) : Balanced word := by
  refine balanced_of_not_mem fun c hc => ⟨?_, ?_⟩
  all_goals
    rintro rfl
    have hmem := h.toLower_mem hc
    revert hmem
    cases k <;> decide

theorem closesAtEnd_balanced (h : Balanced s) (depth : Nat) (rest : List Char) :
    closesAtEnd depth (s ++ rest) = closesAtEnd depth rest := by
  induction h generalizing depth rest with
  | nil => rfl
  | @other c s hopen hclose _ ih =>
      rw [List.cons_append, closesAtEnd, ih]
      · exact hopen
      · exact hclose
  | @nest s t _ _ ihs iht =>
      have hassoc : '(' :: s ++ ')' :: t ++ rest = '(' :: (s ++ ')' :: (t ++ rest)) := by simp
      rw [hassoc, closesAtEnd, ihs, closesAtEnd, if_neg (Nat.succ_ne_zero depth), Nat.add_sub_cancel, iht]

theorem getLast?_of_closesAtEnd (h : closesAtEnd depth s = true) : s.getLast? = some ')' := by
  fun_induction closesAtEnd depth s with
  | case1 => cases h
  | case2 depth s ih => simp [List.getLast?_cons, ih h]
  | case3 s => simp [List.isEmpty_iff.mp h]
  | case4 depth s _ ih => simp [List.getLast?_cons, ih h]
  | case5 depth c s _ _ ih => simp [List.getLast?_cons, ih h]

theorem foldl_depthAfter (h : '(' ∉ s) : s.foldl depthAfter 0 = 0 := by
  induction s with
  | nil => rfl
  | cons c s ih =>
      rw [List.mem_cons, not_or] at h
      rw [List.foldl_cons, depthAfter_zero (Ne.symm h.1), ih h.2]

/-- A text through which the search for a connective goes without finding one, and which leaves it
outside all parentheses. -/
def Passes (s : List Char) : Prop :=
  ∀ rest : List Char, (∀ c ∈ rest.head?, isBlank c = true) → split? 0 (s ++ rest) = (split? 0 rest).map (onto s)

theorem passes_of_undivided (hs : Undivided s) (hlast : ∀ c ∈ s.getLast?, isBlank c = false)
    (hdepth : s.foldl depthAfter 0 = 0) : Passes s := by
  intro rest hrest
  rw [split?_append hs hlast hrest, hdepth]

theorem Balanced.passes_enclosed (h : Balanced s) : Passes ('(' :: s ++ [')']) := by
  intro rest _
  have hassoc : '(' :: s ++ [')'] ++ rest = '(' :: (s ++ ')' :: rest) := by simp
  have hopen : depthAfter 0 '(' = 0 + 1 := rfl
  have hclose : depthAfter (0 + 1) ')' = 0 := rfl
  rw [hassoc, split?_cons (here?_of_not_blank rfl _), hopen, split?_balanced h, split?_cons here?_inside, hclose,
    Option.map_map, Option.map_map]
  refine congrArg (Option.map · _) (funext fun found => ?_)
  simp [onto]

theorem Passes.split?_join (hs : Passes s) (hgap : IsGap gap) (hword : IsWord k word) (hgap' : IsGap gap')
    (t : List Char) : split? 0 (s ++ gap ++ word ++ gap' ++ t) = some (s, k, trimStart t) := by
  have hrest : ∀ c ∈ (gap' ++ t).head?, isBlank c = true := hgap'.head_append t
  obtain ⟨b, gap, rfl⟩ := List.exists_cons_of_ne_nil hgap.ne_nil
  have hb := List.forall_mem_cons.mp hgap.blank
  have htrim : trimStart (gap ++ (word ++ (gap' ++ t))) = word ++ (gap' ++ t) := by
    rw [trimStart_blanks_append hb.2]
    apply trimStart_of_head?
    obtain ⟨c, word, rfl⟩ := List.exists_cons_of_ne_nil hword.ne_nil
    exact fun d hd => hword.blank_free d (Option.some.inj hd ▸ List.mem_cons_self)
  have hat : at? (gap ++ (word ++ (gap' ++ t))) = some (k, trimStart t) := by
    rw [at?_eq_some_iff, htrim, firstWord_append _ hrest, firstWord_eq_self hword.blank_free,
      afterFirst_append hword.blank_free hrest, trimStart_blanks_append hgap'.blank]
    exact ⟨hword, List.append_ne_nil_of_left_ne_nil hgap'.ne_nil t, rfl⟩
  have hassoc : s ++ b :: gap ++ word ++ gap' ++ t = s ++ (b :: (gap ++ (word ++ (gap' ++ t)))) := by simp
  have hblank : ∀ c ∈ (b :: (gap ++ (word ++ (gap' ++ t)))).head?, isBlank c = true :=
    fun c hc => Option.some.inj hc ▸ hb.1
  rw [hassoc, hs _ hblank, split?, here?_of_blank hb.1, hat]
  simp [onto]

theorem stripParentheses_trim (s : List Char) : stripParentheses (trim s) = stripParentheses s := by
  rw [stripParentheses, stripParentheses, trim_idem]

theorem stripParentheses_blanks_append {w w' : List Char} (hw : ∀ c ∈ w, isBlank c = true) (s : List Char)
    (hw' : ∀ c ∈ w', isBlank c = true) : stripParentheses (w ++ s ++ w') = stripParentheses s := by
  rw [← stripParentheses_trim, trim_blanks_append hw s hw', stripParentheses_trim]

theorem isTrimmed_enclosed (s : List Char) : IsTrimmed ('(' :: s ++ [')']) :=
  (isTrimmed_singleton rfl).append (isTrimmed_singleton rfl) s

theorem Balanced.stripParentheses_enclosed (h : Balanced s) :
    stripParentheses ('(' :: s ++ [')']) = stripParentheses s := by
  have htrim : trim ('(' :: s ++ [')']) = '(' :: (s ++ [')']) := (isTrimmed_enclosed s).trim_eq
  have hcloses : closesAtEnd 0 (s ++ [')']) = true := by
    rw [closesAtEnd_balanced h]
    rfl
  rw [stripParentheses, htrim]
  split
  next t ht =>
    cases ht
    rw [if_pos hcloses, List.dropLast_concat]
  next hopen => exact (hopen _ rfl).elim

theorem stripParentheses_eq_self (hs : trim s = s) (h : ∀ t, s = '(' :: t → closesAtEnd 0 t = false) :
    stripParentheses s = s := by
  rw [stripParentheses, hs]
  split
  next t => rw [if_neg (by rw [h t rfl]; exact Bool.false_ne_true)]
  next => rfl

theorem stripParentheses_of_not_mem (hs : IsTrimmed s) (h : '(' ∉ s) : stripParentheses s = s :=
  stripParentheses_eq_self hs.trim_eq fun _ ht => (h (ht ▸ List.mem_cons_self)).elim

theorem stripParentheses_join (hs : IsTrimmed s) (ht : IsTrimmed t) (hparen : '(' ∉ s) (middle : List Char) :
    stripParentheses (s ++ middle ++ t) = s ++ middle ++ t := by
  refine stripParentheses_eq_self (hs.append ht middle).trim_eq fun u hu => ?_
  obtain ⟨c, s, rfl⟩ := List.exists_cons_of_ne_nil hs.ne_nil
  exact (hparen ((List.cons.inj hu).1 ▸ List.mem_cons_self)).elim

theorem stripParentheses_idem (s : List Char) :
    stripParentheses (stripParentheses s) = stripParentheses s := by
  fun_induction stripParentheses s with
  | case1 s t _ _ ih => exact ih
  | case2 s t htrim hcloses =>
      refine stripParentheses_eq_self (htrim ▸ trim_idem s) ?_
      rintro _ ⟨⟩
      exact Bool.not_eq_true _ ▸ hcloses
  | case3 s hopen => exact stripParentheses_eq_self (trim_idem s) fun t ht => (hopen t ht).elim

theorem split?_sides_length_lt {left right : List Char}
    (h : split? 0 (stripParentheses s) = some (left, k, right)) :
    (stripParentheses left).length < s.length ∧ (stripParentheses right).length < s.length := by
  obtain ⟨hleft, hright⟩ := split?_length_lt h
  have hs := stripParentheses_length_le s
  have hleft' := stripParentheses_length_le left
  have hright' := stripParentheses_length_le right
  omega

theorem stripParentheses_subset (s : List Char) : stripParentheses s ⊆ s := by
  fun_induction stripParentheses s with
  | case1 s t htrim _ ih =>
      have hinside : t ⊆ s := fun c hc => trim_subset s (htrim ▸ List.mem_cons_of_mem '(' hc)
      exact List.Subset.trans ih (List.Subset.trans (List.dropLast_subset t) hinside)
  | case2 s t htrim => exact htrim ▸ trim_subset s
  | case3 s => exact trim_subset s

/-- Two texts are divided at the connective between them if the first one has no parenthesis and nothing in it
that could be a connective. -/
theorem split?_join (hs : IsTrimmed s) (ht : IsTrimmed t) (hparen : '(' ∉ s) (hundivided : Undivided s)
    (hgap : IsGap gap) (hword : IsWord k word) (hgap' : IsGap gap') :
    split? 0 (stripParentheses (s ++ (gap ++ word ++ gap') ++ t)) = some (s, k, t) := by
  have hpasses : Passes s := passes_of_undivided hundivided hs.last (foldl_depthAfter hparen)
  have hassoc : s ++ (gap ++ word ++ gap') ++ t = s ++ gap ++ word ++ gap' ++ t := by simp
  rw [stripParentheses_join hs ht hparen, hassoc, hpasses.split?_join hgap hword hgap', trimStart_of_head? ht.head]

end Connective

end Phrasebook
