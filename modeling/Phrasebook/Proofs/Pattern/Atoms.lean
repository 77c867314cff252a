import Mathlib.Data.List.DropRight
import Mathlib.Data.List.Chain
import Phrasebook.Pattern.NormalForm

namespace Phrasebook

/-- The characters of the texts of an expression and its other parts, one after another. -/
abbrev Atom := Char ⊕ Part

namespace Part

def isText : Part → Bool
  | .text _ => true
  | _ => false

def isEmptyText : Part → Bool
  | .text s => s.isEmpty
  | _ => false

def atoms : Part → List Atom
  | .text s => s.toList.map .inl
  | p => [.inr p]

theorem atoms_of_not_isText {p : Part} (hp : p.isText = false) : p.atoms = [.inr p] := by
  cases p <;> first | rfl | cases hp

theorem isEmptyText_of_not_isText {p : Part} (hp : p.isText = false) : p.isEmptyText = false := by
  cases p <;> first | rfl | cases hp

theorem isEmptyText_eq_true_iff {p : Part} : p.isEmptyText = true ↔ p = .text "" := by
  cases p <;> simp [isEmptyText]

end Part

namespace Atom

def isBlank : Atom → Bool
  | .inl c => Text.isBlank c
  | .inr _ => false

def isQuote : Atom → Bool
  | .inl c => c == '"'
  | .inr _ => false

def unquoted (l : List Atom) : List Atom :=
  let l := (l.dropWhile isBlank).rdropWhile isBlank
  if l.head?.any isQuote ∧ l.getLast?.any isQuote ∧ l.length ≠ 1 then l.tail.dropLast else l

def attach : Atom → Expression → Expression
  | .inl c, .text s :: rest => .text (String.ofList (c :: s.toList)) :: rest
  | .inl c, e => .text (String.ofList [c]) :: e
  | .inr p, e => p :: e

abbrev chars (s : List Char) : List Atom :=
  s.map .inl

def isEdge (a : Atom) : Bool :=
  a.isBlank || a.isQuote

theorem isBlank_map (f : Part → Part) (a : Atom) : isBlank (Sum.map id f a) = isBlank a := by
  cases a <;> rfl

theorem isQuote_map (f : Part → Part) (a : Atom) : isQuote (Sum.map id f a) = isQuote a := by
  cases a <;> rfl

theorem any_isQuote_map (f : Part → Part) (a : Option Atom) :
    (a.map (Sum.map id f)).any isQuote = a.any isQuote := by
  cases a with
  | none => rfl
  | some a => exact isQuote_map f a

theorem dropWhile_isBlank_map (f : Part → Part) (l : List Atom) :
    (l.map (Sum.map id f)).dropWhile isBlank = (l.dropWhile isBlank).map (Sum.map id f) := by
  rw [List.dropWhile_map]
  congr 2
  exact funext (isBlank_map f)

theorem unquoted_map (f : Part → Part) (l : List Atom) :
    unquoted (l.map (Sum.map id f)) = (unquoted l).map (Sum.map id f) := by
  have hdrop : ((l.map (Sum.map id f)).dropWhile isBlank).rdropWhile isBlank =
      ((l.dropWhile isBlank).rdropWhile isBlank).map (Sum.map id f) := by
    rw [dropWhile_isBlank_map, List.rdropWhile, List.rdropWhile, ← List.map_reverse,
      dropWhile_isBlank_map, List.map_reverse]
  unfold unquoted
  dsimp only
  rw [hdrop]
  simp only [List.head?_map, List.getLast?_map, any_isQuote_map, List.length_map]
  split
  · rw [List.map_dropLast, List.map_tail]
  · rfl

theorem trim_blanks {l : List Atom} {w w' : List Char} (hw : ∀ c ∈ w, Text.isBlank c = true)
    (hw' : ∀ c ∈ w', Text.isBlank c = true) (hhead : ∀ a ∈ l.head?, isBlank a = false)
    (hlast : ∀ a ∈ l.getLast?, isBlank a = false) :
    ((chars w ++ (l ++ chars w')).dropWhile isBlank).rdropWhile isBlank = l := by
  have hblanks {v : List Char} (hv : ∀ c ∈ v, Text.isBlank c = true) :
      ∀ a ∈ chars v, isBlank a = true := by
    intro a ha
    obtain ⟨c, hc, rfl⟩ := List.mem_map.mp ha
    exact hv c hc
  rw [List.dropWhile_append_of_pos (hblanks hw)]
  cases l with
  | nil =>
      rw [List.nil_append, List.dropWhile_eq_nil_iff.mpr (hblanks hw')]
      rfl
  | cons a l =>
      have ha : ¬ isBlank a = true := by rw [hhead a rfl]; exact Bool.false_ne_true
      rw [List.cons_append, List.dropWhile_cons_of_neg ha, ← List.cons_append, List.rdropWhile,
        List.reverse_append, List.dropWhile_append_of_pos]
      · rw [← List.rdropWhile, List.rdropWhile_eq_self_iff]
        intro hne
        rw [hlast _ (List.getLast?_eq_some_getLast hne)]
        exact Bool.false_ne_true
      · intro b hb
        exact hblanks hw' b (List.mem_reverse.mp hb)

theorem unquoted_blanks {l : List Atom} {w w' : List Char} (hw : ∀ c ∈ w, Text.isBlank c = true)
    (hw' : ∀ c ∈ w', Text.isBlank c = true) (hhead : l.head?.any isEdge = false)
    (hlast : l.getLast?.any isEdge = false) : unquoted (chars w ++ (l ++ chars w')) = l := by
  have hedge {a : Option Atom} (ha : a.any isEdge = false) :
      (∀ b ∈ a, isBlank b = false) ∧ a.any isQuote = false := by
    cases a with
    | none => exact ⟨by rintro b ⟨⟩, rfl⟩
    | some a =>
        rw [Option.any_some, isEdge, Bool.or_eq_false_iff] at ha
        exact ⟨by rintro b ⟨⟩; exact ha.1, ha.2⟩
  unfold unquoted
  dsimp only
  rw [trim_blanks hw hw' (hedge hhead).1 (hedge hlast).1, if_neg]
  rw [(hedge hhead).2]
  exact fun h => Bool.false_ne_true h.1

theorem unquoted_quotes {l : List Atom} {w w' : List Char} (hw : ∀ c ∈ w, Text.isBlank c = true)
    (hw' : ∀ c ∈ w', Text.isBlank c = true) :
    unquoted (chars w ++ ((.inl '"' :: (l ++ [.inl '"'])) ++ chars w')) = l := by
  have hlast : (Sum.inl '"' :: (l ++ [Sum.inl '"']) : List Atom).getLast? = some (.inl '"') := by
    rw [← List.cons_append, List.getLast?_concat]
  unfold unquoted
  dsimp only
  rw [trim_blanks hw hw' (by rintro a ⟨⟩; rfl) (by rw [hlast]; rintro a ⟨⟩; rfl), if_pos]
  · rw [List.tail_cons, List.dropLast_concat]
  · rw [hlast]
    refine ⟨rfl, rfl, ?_⟩
    rw [List.length_cons, List.length_append, List.length_singleton]
    omega

end Atom

namespace Expression

def atoms (e : Expression) : List Atom := e.flatMap Part.atoms

/-- No two texts stand next to each other. -/
def Separated (e : Expression) : Prop :=
  (e.map Part.isText).IsChain fun p q : Bool => ¬ (p ∧ q)

theorem atoms_nil : atoms [] = [] := rfl

theorem atoms_cons (p : Part) (e : Expression) : atoms (p :: e) = p.atoms ++ atoms e := rfl

theorem atoms_append (e e' : Expression) : atoms (e ++ e') = atoms e ++ atoms e' :=
  List.flatMap_append

theorem atoms_map {f : Part → Part} (hf : ∀ p, (f p).atoms = p.atoms.map (Sum.map id f)) (e : Expression) :
    atoms (e.map f) = (atoms e).map (Sum.map id f) := by
  induction e with
  | nil => rfl
  | cons p e ih => rw [List.map_cons, atoms_cons, hf, ih, atoms_cons, List.map_append]

theorem Separated.congr {e e' : Expression} (h : Separated e)
    (he : e'.map Part.isText = e.map Part.isText) : Separated e' := by
  rwa [Separated, he]

theorem Separated.tail {p : Part} {e : Expression} (h : Separated (p :: e)) : Separated e :=
  h.of_cons

theorem Separated.head {p q : Part} {e : Expression} (h : Separated (p :: q :: e))
    (hp : p.isText = true) : q.isText = false := by
  have := (List.isChain_cons_cons.mp h).1
  cases hq : q.isText
  · rfl
  · exact (this ⟨hp, hq⟩).elim

theorem separated_cons {p : Part} {e : Expression} (he : Separated e)
    (h : ∀ q ∈ e.head?, ¬ (p.isText = true ∧ q.isText = true)) : Separated (p :: e) := by
  cases e with
  | nil => exact List.isChain_singleton _
  | cons q e => exact List.isChain_cons_cons.mpr ⟨h q rfl, he⟩

theorem Separated.head?_atoms {s : String} {e : Expression} (h : Separated (.text s :: e)) :
    ∀ a ∈ (atoms e).head?, ∃ p, a = .inr p := by
  cases e with
  | nil => simp [atoms_nil]
  | cons q e =>
      rw [atoms_cons, Part.atoms_of_not_isText (h.head rfl)]
      rintro a ⟨⟩
      exact ⟨q, rfl⟩

theorem foldr_attach_chars (s : List Char) {e : Expression} (he : ∀ p ∈ e.head?, p.isText = false) :
    (s.map Sum.inl).foldr Atom.attach e = if s = [] then e else .text (String.ofList s) :: e := by
  induction s with
  | nil => rfl
  | cons c s ih =>
      rw [List.map_cons, List.foldr_cons, ih, if_neg (List.cons_ne_nil c s)]
      by_cases hs : s = []
      · subst hs
        cases e with
        | nil => rfl
        | cons p e =>
            have := he p rfl
            cases p <;> first | rfl | cases this
      · rw [if_neg hs, Atom.attach, String.toList_ofList]

/-- The atoms of an expression determine it up to empty texts. -/
theorem foldr_attach_atoms {e : Expression} (h : Separated e) :
    (atoms e).foldr Atom.attach [] = e.filter fun p => !p.isEmptyText := by
  induction e with
  | nil => rfl
  | cons p e ih =>
      rw [atoms_cons, List.foldr_append, ih h.tail]
      cases hp : p.isText with
      | false =>
          rw [Part.atoms_of_not_isText hp, List.filter_cons_of_pos]
          · rfl
          · rw [Part.isEmptyText_of_not_isText hp]
            rfl
      | true =>
          obtain ⟨s, rfl⟩ : ∃ s, p = .text s := by cases p <;> first | exact ⟨_, rfl⟩ | cases hp
          have hhead : ∀ q ∈ (e.filter fun p => !p.isEmptyText).head?, q.isText = false := by
            cases e with
            | nil => simp
            | cons q e =>
                have hq := h.head rfl
                rw [List.filter_cons_of_pos (by rw [Part.isEmptyText_of_not_isText hq]; rfl)]
                rintro r ⟨⟩
                exact hq
          rw [Part.atoms, foldr_attach_chars _ hhead]
          by_cases hs : s = ""
          · subst hs
            rfl
          · rw [if_neg (by simpa using hs), List.filter_cons_of_pos (by simpa [Part.isEmptyText] using hs),
              String.ofList_toList]

theorem filter_eq_of_atoms_eq {e e' : Expression} (h : Separated e) (h' : Separated e')
    (ha : atoms e = atoms e') :
    (e.filter fun p => !p.isEmptyText) = e'.filter fun p => !p.isEmptyText := by
  rw [← foldr_attach_atoms h, ha, foldr_attach_atoms h']

theorem map_isText_mapFirstText (f : List Char → List Char) (e : Expression) :
    (mapFirstText f e).map Part.isText = e.map Part.isText := by
  unfold mapFirstText
  split <;> rfl

theorem map_isText_mapLastText (f : List Char → List Char) (e : Expression) :
    (mapLastText f e).map Part.isText = e.map Part.isText := by
  fun_induction mapLastText f e with
  | case1 => rfl
  | case2 => rfl
  | case3 p rest _ ih => rw [List.map_cons, List.map_cons, ih]

theorem map_isText_unquoted (e : Expression) : (unquoted e).map Part.isText = e.map Part.isText := by
  unfold unquoted
  dsimp only
  split <;> simp only [map_isText_mapFirstText, map_isText_mapLastText]

theorem Separated.orEmptyText {e : Expression} (h : Separated e) : Separated (Reader.orEmptyText e) := by
  cases e with
  | nil => exact List.isChain_singleton _
  | cons p e => exact h

theorem atoms_orEmptyText (e : Expression) : atoms (Reader.orEmptyText e) = atoms e := by
  cases e <;> rfl

theorem Separated.exists_first {e : Expression} (h : Separated e) :
    ∃ (s : List Char) (l : List Atom), (∀ a ∈ l.head?, ∃ p, a = .inr p) ∧ firstChar? e = s.head? ∧
      ∀ f : List Char → List Char, f [] = [] → atoms (mapFirstText f e) = (f s).map .inl ++ l := by
  cases e with
  | nil => exact ⟨[], [], by simp, rfl, fun f hf => by rw [hf]; rfl⟩
  | cons p e =>
      cases hp : p.isText with
      | false =>
          refine ⟨[], .inr p :: atoms e, by simp, ?_, ?_⟩
          · cases p <;> first | rfl | cases hp
          · intro f hf
            have hm : mapFirstText f (p :: e) = p :: e := by cases p <;> first | rfl | cases hp
            rw [hm, hf, atoms_cons, Part.atoms_of_not_isText hp]
            rfl
      | true =>
          obtain ⟨s, rfl⟩ : ∃ s, p = .text s := by cases p <;> first | exact ⟨_, rfl⟩ | cases hp
          refine ⟨s.toList, atoms e, h.head?_atoms, rfl, ?_⟩
          intro f _
          rw [mapFirstText, atoms_cons, Part.atoms, String.toList_ofList]

theorem mapLastText_concat (f : List Char → List Char) (e : Expression) (p : Part) :
    mapLastText f (e ++ [p]) = e ++ mapFirstText f [p] := by
  induction e with
  | nil => cases p <;> rfl
  | cons q e ih =>
      rw [List.cons_append, List.cons_append, ← ih]
      cases e <;> cases q <;> rfl

theorem lastChar?_concat (e : Expression) (p : Part) : lastChar? (e ++ [p]) = lastChar? [p] := by
  induction e with
  | nil => rfl
  | cons q e ih =>
      rw [← ih]
      cases e <;> cases q <;> rfl

theorem Separated.getLast?_atoms {s : String} {e : Expression} (h : Separated (e ++ [.text s])) :
    ∀ a ∈ (atoms e).getLast?, ∃ p, a = .inr p := by
  rcases List.eq_nil_or_concat e with rfl | ⟨e, q, rfl⟩
  · simp [atoms_nil]
  · have hq : q.isText = false := by
      rw [Separated, List.map_append, List.concat_eq_append, List.map_append] at h
      have := (List.isChain_append.mp h).2.2 q.isText (by simp) true rfl
      simpa using this
    rw [List.concat_eq_append, atoms_append, atoms_cons, Part.atoms_of_not_isText hq, atoms_nil]
    simp

theorem Separated.exists_last {e : Expression} (h : Separated e) :
    ∃ (l : List Atom) (s : List Char), (∀ a ∈ l.getLast?, ∃ p, a = .inr p) ∧ lastChar? e = s.getLast? ∧
      ∀ f : List Char → List Char, f [] = [] → atoms (mapLastText f e) = l ++ (f s).map .inl := by
  rcases List.eq_nil_or_concat e with rfl | ⟨e, p, rfl⟩
  · exact ⟨[], [], by simp, rfl, fun f hf => by rw [hf]; rfl⟩
  rw [List.concat_eq_append] at h ⊢
  simp only [mapLastText_concat, lastChar?_concat, atoms_append]
  cases hp : p.isText with
  | false =>
      refine ⟨atoms e ++ [.inr p], [], by simp, ?_, ?_⟩
      · cases p <;> first | rfl | cases hp
      · intro f hf
        have hm : mapFirstText f [p] = [p] := by cases p <;> first | rfl | cases hp
        rw [hm, hf, atoms_cons, Part.atoms_of_not_isText hp, atoms_nil]
        simp
  | true =>
      obtain ⟨s, rfl⟩ : ∃ s, p = .text s := by cases p <;> first | exact ⟨_, rfl⟩ | cases hp
      refine ⟨atoms e, s.toList, h.getLast?_atoms, rfl, ?_⟩
      intro f _
      rw [mapFirstText, atoms_cons, Part.atoms, String.toList_ofList, atoms_nil, List.append_nil]

theorem atoms_mapFirstText_id (e : Expression) : atoms (mapFirstText id e) = atoms e := by
  unfold mapFirstText
  split
  · rw [id, String.ofList_toList]
  · rfl

theorem mapLastText_id (e : Expression) : mapLastText id e = e := by
  fun_induction mapLastText id e with
  | case1 => rfl
  | case2 s => rw [id, String.ofList_toList]
  | case3 p rest _ ih => rw [ih]

theorem dropWhile_isBlank_append {l : List Atom} (hl : ∀ a ∈ l.head?, ∃ p, a = .inr p)
    (s : List Char) :
    (s.map Sum.inl ++ l).dropWhile Atom.isBlank = (Text.trimStart s).map .inl ++ l := by
  induction s with
  | nil =>
      cases l with
      | nil => rfl
      | cons a l =>
          obtain ⟨p, rfl⟩ := hl a rfl
          rfl
  | cons c s ih =>
      by_cases hc : Text.isBlank c = true
      · have ht : Text.trimStart (c :: s) = Text.trimStart s := List.dropWhile_cons_of_pos hc
        rw [ht, ← ih]
        exact List.dropWhile_cons_of_pos hc
      · have ht : Text.trimStart (c :: s) = c :: s := List.dropWhile_cons_of_neg hc
        rw [ht]
        exact List.dropWhile_cons_of_neg hc

theorem rdropWhile_isBlank_append {l : List Atom} (hl : ∀ a ∈ l.getLast?, ∃ p, a = .inr p)
    (s : List Char) :
    (l ++ s.map Sum.inl).rdropWhile Atom.isBlank = l ++ (Text.trimEnd s).map .inl := by
  induction s using List.reverseRecOn with
  | nil =>
      rw [List.map_nil, List.append_nil]
      change _ = l ++ []
      rw [List.append_nil]
      rcases List.eq_nil_or_concat l with rfl | ⟨l, a, rfl⟩
      · rfl
      · rw [List.concat_eq_append] at hl ⊢
        obtain ⟨p, rfl⟩ := hl a (by simp)
        exact List.rdropWhile_concat_neg _ _ _ (by simp [Atom.isBlank])
  | append_singleton s c ih =>
      rw [List.map_append, List.map_singleton, ← List.append_assoc]
      by_cases hc : Text.isBlank c = true
      · have ht : Text.trimEnd (s ++ [c]) = Text.trimEnd s := List.rdropWhile_concat_pos _ _ _ hc
        rw [ht, ← ih]
        exact List.rdropWhile_concat_pos _ _ _ hc
      · have ht : Text.trimEnd (s ++ [c]) = s ++ [c] := List.rdropWhile_concat_neg _ _ _ hc
        rw [ht, List.map_append, List.map_singleton, ← List.append_assoc]
        exact List.rdropWhile_concat_neg _ _ _ hc

theorem Separated.atoms_trimStart {e : Expression} (h : Separated e) :
    atoms (mapFirstText Text.trimStart e) = (atoms e).dropWhile Atom.isBlank := by
  obtain ⟨s, l, hl, -, hf⟩ := h.exists_first
  rw [hf _ rfl, ← atoms_mapFirstText_id e, hf _ rfl, id, dropWhile_isBlank_append hl]

theorem Separated.atoms_trimEnd {e : Expression} (h : Separated e) :
    atoms (mapLastText Text.trimEnd e) = (atoms e).rdropWhile Atom.isBlank := by
  obtain ⟨l, s, hl, -, hf⟩ := h.exists_last
  have ha := hf id rfl
  rw [mapLastText_id, id] at ha
  rw [hf _ rfl, ha, rdropWhile_isBlank_append hl]

theorem Separated.firstChar?_eq_some_iff {e : Expression} (h : Separated e) (c : Char) :
    firstChar? e = some c ↔ (atoms e).head? = some (.inl c) := by
  obtain ⟨s, l, hl, hs, hf⟩ := h.exists_first
  rw [hs, ← atoms_mapFirstText_id e, hf _ rfl, id]
  cases s with
  | nil =>
      constructor
      · rintro ⟨⟩
      · intro hc
        obtain ⟨p, hp⟩ := hl _ hc
        cases hp
  | cons d s => simp

theorem Separated.lastChar?_eq_some_iff {e : Expression} (h : Separated e) (c : Char) :
    lastChar? e = some c ↔ (atoms e).getLast? = some (.inl c) := by
  obtain ⟨l, s, hl, hs, hf⟩ := h.exists_last
  have ha := hf id rfl
  rw [mapLastText_id, id] at ha
  rw [hs, ha]
  rcases List.eq_nil_or_concat s with rfl | ⟨s, d, rfl⟩
  · constructor
    · rintro ⟨⟩
    · intro hc
      obtain ⟨p, hp⟩ := hl _ (by simpa using hc)
      cases hp
  · simp

theorem any_isQuote_iff (a : Option Atom) :
    a.any Atom.isQuote = true ↔ a = some (.inl '"') := by
  rcases a with _ | c | p <;> simp [Atom.isQuote]

theorem Separated.firstChar?_eq_quote_iff {e : Expression} (h : Separated e) :
    firstChar? e = some '"' ↔ (atoms e).head?.any Atom.isQuote = true := by
  rw [h.firstChar?_eq_some_iff, any_isQuote_iff]

theorem Separated.lastChar?_eq_quote_iff {e : Expression} (h : Separated e) :
    lastChar? e = some '"' ↔ (atoms e).getLast?.any Atom.isQuote = true := by
  rw [h.lastChar?_eq_some_iff, any_isQuote_iff]

theorem Separated.atoms_tail {e : Expression} (h : Separated e) {c : Char}
    (hc : firstChar? e = some c) : atoms (mapFirstText List.tail e) = (atoms e).tail := by
  obtain ⟨s, l, -, hs, hf⟩ := h.exists_first
  rw [hf _ rfl, ← atoms_mapFirstText_id e, hf _ rfl, id]
  cases s with
  | nil => cases hs.symm.trans hc
  | cons d s => rfl

theorem Separated.atoms_dropLast {e : Expression} (h : Separated e) {c : Char}
    (hc : lastChar? e = some c) : atoms (mapLastText List.dropLast e) = (atoms e).dropLast := by
  obtain ⟨l, s, -, hs, hf⟩ := h.exists_last
  have ha := hf id rfl
  rw [mapLastText_id, id] at ha
  rw [hf _ rfl, ha]
  rcases List.eq_nil_or_concat s with rfl | ⟨s, d, rfl⟩
  · cases hs.symm.trans hc
  · simp

theorem Separated.isLoneQuote_iff {e : Expression} (h : Separated e) (hq : firstChar? e = some '"') :
    isLoneQuote e = true ↔ (atoms e).length = 1 := by
  cases e with
  | nil => cases hq
  | cons p e =>
      obtain ⟨s, rfl⟩ : ∃ s, p = .text s := by cases p <;> first | exact ⟨_, rfl⟩ | cases hq
      obtain ⟨t, ht⟩ : ∃ t, s.toList = '"' :: t := List.head?_eq_some_iff.mp hq
      have hs : s = "\"" ↔ t = [] := by
        rw [← String.toList_inj, ht]
        simp
      cases e with
      | nil => simp [isLoneQuote, text?, atoms, Part.atoms, ht, hs]
      | cons q e =>
          have hq' := Part.atoms_of_not_isText (h.head rfl)
          rw [atoms_cons, atoms_cons, hq', Part.atoms, ht]
          simp [isLoneQuote, text?]

theorem Separated.atoms_unquoted {e : Expression} (h : Separated e) :
    atoms (unquoted e) = Atom.unquoted (atoms e) := by
  have h₁ : Separated (mapFirstText Text.trimStart e) := h.congr (map_isText_mapFirstText _ e)
  have h₂ := h₁.congr (map_isText_mapLastText Text.trimEnd _)
  have ha : atoms (mapLastText Text.trimEnd (mapFirstText Text.trimStart e)) =
      ((atoms e).dropWhile Atom.isBlank).rdropWhile Atom.isBlank := by
    rw [h₁.atoms_trimEnd, h.atoms_trimStart]
  unfold unquoted Atom.unquoted
  dsimp only
  rw [← ha]
  generalize mapLastText Text.trimEnd (mapFirstText Text.trimStart e) = e at h₂ ⊢
  by_cases hf : firstChar? e = some '"'
  swap
  · rw [if_neg (fun h => hf h.1), if_neg fun h => hf (h₂.firstChar?_eq_quote_iff.mpr h.1)]
  by_cases hl : lastChar? e = some '"'
  swap
  · rw [if_neg (fun h => hl h.2.1), if_neg fun h => hl (h₂.lastChar?_eq_quote_iff.mpr h.2.1)]
  by_cases hn : (atoms e).length = 1
  · rw [if_neg fun h => h.2.2 ((h₂.isLoneQuote_iff hf).mpr hn), if_neg fun h => h.2.2 hn]
  rw [if_pos ⟨hf, hl, fun h => hn ((h₂.isLoneQuote_iff hf).mp h)⟩,
    if_pos ⟨h₂.firstChar?_eq_quote_iff.mp hf, h₂.lastChar?_eq_quote_iff.mp hl, hn⟩]
  have h₃ := h₂.congr (map_isText_mapFirstText List.tail e)
  have ht := h₂.atoms_tail hf
  have hl' : lastChar? (mapFirstText List.tail e) = some '"' := by
    rw [h₃.lastChar?_eq_some_iff, ht]
    rw [h₂.lastChar?_eq_some_iff] at hl
    rw [h₂.firstChar?_eq_some_iff] at hf
    generalize atoms e = l at *
    cases l with
    | nil => cases hl
    | cons a l =>
        cases l with
        | nil => exact (hn rfl).elim
        | cons b l => simpa using hl
  rw [h₃.atoms_dropLast hl', ht]

end Expression

end Phrasebook
