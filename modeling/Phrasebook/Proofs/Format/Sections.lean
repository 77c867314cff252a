import Mathlib.Data.List.TakeWhile
import Phrasebook.Format.Number

namespace Phrasebook.Number

/-- A piece of a custom format that becomes one token. Only at the end of a format a backslash may have nothing behind
it and a quote may be left open. -/
inductive Lexeme where
  | plain (c : Char)
  | escaped (c : Char)
  | quoted (quote : Char) (body : List Char)
  | dangling
  | unclosed (quote : Char) (body : List Char)
deriving DecidableEq

namespace Lexeme

def text : Lexeme → List Char
  | plain c => [c]
  | escaped c => ['\\', c]
  | quoted quote body => quote :: (body ++ [quote])
  | dangling => ['\\']
  | unclosed quote body => quote :: body

def token : Lexeme → Token
  | plain '0' => .zero
  | plain '#' => .hash
  | plain '.' => .point
  | plain ',' => .comma
  | plain '%' => .percent
  | plain c | escaped c => .literal [c]
  | quoted _ body | unclosed _ body => .literal body
  | dangling => .literal []

def isComplete : Lexeme → Bool
  | dangling | unclosed _ _ => false
  | _ => true

def semicolon : Lexeme :=
  plain ';'

end Lexeme

def lexemes : List Char → List Lexeme
  | [] => []
  | ['\\'] => [.dangling]
  | '\\' :: c :: s => .escaped c :: lexemes s
  | c :: s =>
    if isQuote c then
      have := untilQuote_length_le c s
      if c ∈ s then .quoted c (untilQuote c s).1 :: lexemes (untilQuote c s).2 else [.unclosed c s]
    else .plain c :: lexemes s
termination_by s => s.length

open Lexeme

/-- All its pieces are complete, and no semicolon is one of them on its own. -/
structure IsSection (s : List Char) : Prop where
  isComplete : ∀ x ∈ lexemes s, x.isComplete = true
  not_mem : semicolon ∉ lexemes s

theorem isSection_iff {s : List Char} :
    IsSection s ↔ ((lexemes s).all fun x => x.isComplete && x != semicolon) = true := by
  rw [List.all_eq_true]
  constructor
  · intro h x hx
    exact Bool.and_eq_true_iff.mpr ⟨h.isComplete x hx, bne_iff_ne.mpr fun he => h.not_mem (he ▸ hx)⟩
  · intro h
    exact ⟨fun x hx => (Bool.and_eq_true_iff.mp (h x hx)).1, fun hmem => by cases h _ hmem⟩

variable {c quote : Char} {body s : List Char}

theorem ne_backslash_of_isQuote (h : isQuote c = true) : c ≠ '\\' := by
  rintro rfl
  cases h

theorem untilQuote_append (hbody : quote ∉ body) (s : List Char) :
    untilQuote quote (body ++ quote :: s) = (body, s) := by
  have hne : ∀ c ∈ body, (c != quote) = true := fun c hc => bne_iff_ne.mpr fun h => hbody (h ▸ hc)
  simp [untilQuote, List.takeWhile_append_of_pos hne, List.dropWhile_append_of_pos hne]

theorem untilQuote_of_notMem (hbody : quote ∉ body) : untilQuote quote body = (body, []) := by
  have hne : ∀ c ∈ body, (c != quote) = true := fun c hc => bne_iff_ne.mpr fun h => hbody (h ▸ hc)
  rw [untilQuote, List.dropWhile_eq_nil_iff.mpr hne, List.takeWhile_eq_self_iff.mpr hne]
  rfl

theorem lexemes_cons (hslash : c ≠ '\\') (s : List Char) :
    lexemes (c :: s) =
      if isQuote c then
        if c ∈ s then quoted c (untilQuote c s).1 :: lexemes (untilQuote c s).2 else [unclosed c s]
      else plain c :: lexemes s := by
  rw [lexemes]
  · exact fun h => (hslash h).elim
  · exact fun _ _ h => (hslash h).elim

theorem lexemes_plain (hquote : isQuote c = false) (hslash : c ≠ '\\') (s : List Char) :
    lexemes (c :: s) = plain c :: lexemes s := by
  rw [lexemes_cons hslash, hquote, if_neg Bool.false_ne_true]

theorem lexemes_quoted (hquote : isQuote quote = true) (hbody : quote ∉ body) (s : List Char) :
    lexemes (quote :: (body ++ quote :: s)) = quoted quote body :: lexemes s := by
  have hmem : quote ∈ body ++ quote :: s := List.mem_append_right body List.mem_cons_self
  rw [lexemes_cons (ne_backslash_of_isQuote hquote), if_pos hquote, if_pos hmem, untilQuote_append hbody]

theorem lexemes_unclosed (hquote : isQuote quote = true) (hbody : quote ∉ body) :
    lexemes (quote :: body) = [unclosed quote body] := by
  rw [lexemes_cons (ne_backslash_of_isQuote hquote), if_pos hquote, if_neg hbody]

@[elab_as_elim]
theorem lexeme_induction {P : List Char → Prop} (nil : P [])
    (plain : ∀ c s, isQuote c = false → c ≠ '\\' → P s → P (c :: s))
    (escaped : ∀ c s, P s → P ('\\' :: c :: s))
    (quoted : ∀ quote body s, isQuote quote = true → quote ∉ body → P s → P (quote :: (body ++ quote :: s)))
    (dangling : P ['\\'])
    (unclosed : ∀ quote body, isQuote quote = true → quote ∉ body → P (quote :: body))
    (s : List Char) : P s := by
  fun_induction lexemes s with
  | case1 => exact nil
  | case2 => exact dangling
  | case3 c s ih => exact escaped c s ih
  | case4 c s _ _ hquote _ hmem ih =>
      obtain ⟨body, rest, rfl, hbody⟩ := List.eq_append_cons_of_mem hmem
      rw [untilQuote_append hbody] at ih
      exact quoted c body rest hquote hbody ih
  | case5 c s _ _ hquote _ hmem => exact unclosed c s hquote hmem
  | case6 c s hnil hcons hquote ih =>
      refine plain c s (Bool.not_eq_true _ ▸ hquote) ?_ ih
      rintro rfl
      cases s with
      | nil => exact hnil rfl rfl
      | cons d s => exact hcons d s rfl rfl

theorem flatMap_text_lexemes (s : List Char) : (lexemes s).flatMap text = s := by
  induction s using lexeme_induction with
  | nil => simp [lexemes]
  | plain c s hquote hslash ih =>
      rw [lexemes_plain hquote hslash, List.flatMap_cons, ih]
      rfl
  | escaped c s ih =>
      rw [lexemes, List.flatMap_cons, ih]
      rfl
  | quoted quote body s hquote hbody ih =>
      rw [lexemes_quoted hquote hbody, List.flatMap_cons, ih, text, List.cons_append, List.append_assoc]
      rfl
  | dangling => simp [lexemes, text]
  | unclosed quote body hquote hbody =>
      rw [lexemes_unclosed hquote hbody, List.flatMap_singleton, text]

theorem tokens_plain (hquote : isQuote c = false) (hslash : c ≠ '\\') (s : List Char) :
    tokens (c :: s) = (plain c).token :: tokens s := by
  by_cases hsymbol : c ∈ ['0', '#', '.', ',', '%']
  · simp only [List.mem_cons, List.not_mem_nil, or_false] at hsymbol
    rcases hsymbol with rfl | rfl | rfl | rfl | rfl <;> rw [tokens, token]
  · simp only [List.mem_cons, List.not_mem_nil, or_false, not_or] at hsymbol
    rw [tokens, hquote, if_neg Bool.false_ne_true, token]
    all_goals simp_all

theorem tokens_isQuote (hquote : isQuote quote = true) (s : List Char) :
    tokens (quote :: s) = .literal (untilQuote quote s).1 :: tokens (untilQuote quote s).2 := by
  have hquotes : quote = '\'' ∨ quote = '"' := by simpa [isQuote] using hquote
  rcases hquotes with rfl | rfl <;> simp [tokens, isQuote]

theorem map_token_lexemes (s : List Char) : (lexemes s).map token = tokens s := by
  induction s using lexeme_induction with
  | nil => simp [lexemes, tokens]
  | plain c s hquote hslash ih =>
      rw [lexemes_plain hquote hslash, List.map_cons, ih, tokens_plain hquote hslash]
  | escaped c s ih =>
      rw [lexemes, List.map_cons, ih, tokens, token]
  | quoted quote body s hquote hbody ih =>
      rw [lexemes_quoted hquote hbody, List.map_cons, ih, tokens_isQuote hquote, untilQuote_append hbody, token]
  | dangling => simp [lexemes, tokens, token]
  | unclosed quote body hquote hbody =>
      rw [lexemes_unclosed hquote hbody, tokens_isQuote hquote, untilQuote_of_notMem hbody]
      simp [tokens, token]

theorem onto_ne_nil (c : Char) (l : List (List Char)) : onto c l ≠ [] := by
  cases l <;> exact List.cons_ne_nil _ _

theorem sectionsFrom_ne_nil (quote : Option Char) (s : List Char) : sectionsFrom quote s ≠ [] := by
  unfold sectionsFrom
  split
  next => exact List.cons_ne_nil _ _
  next => exact onto_ne_nil _ _
  next => exact List.cons_ne_nil _ _
  next => exact onto_ne_nil _ _
  next =>
    split
    · exact List.cons_ne_nil _ _
    · exact onto_ne_nil _ _

theorem sectionsFrom_cons (hslash : c ≠ '\\') (s : List Char) :
    sectionsFrom none (c :: s) =
      if c = ';' then [] :: sectionsFrom none s
      else onto c (sectionsFrom (if isQuote c then some c else none) s) := by
  rw [sectionsFrom]
  · exact fun h => (hslash h).elim
  · exact fun _ _ h => (hslash h).elim

theorem sectionsFrom_isQuote (hquote : isQuote quote = true) (s : List Char) :
    sectionsFrom none (quote :: s) = onto quote (sectionsFrom (some quote) s) := by
  have hsemicolon : ¬ quote = ';' := by
    rintro rfl
    cases hquote
  rw [sectionsFrom_cons (ne_backslash_of_isQuote hquote), if_neg hsemicolon, if_pos hquote]

theorem onto_sectionsFrom (c : Char) (quote : Option Char) (s : List Char) :
    onto c (sectionsFrom quote s) = (sectionsFrom quote s).modifyHead (c :: ·) := by
  obtain ⟨first, rest, h⟩ := List.exists_cons_of_ne_nil (sectionsFrom_ne_nil quote s)
  rw [h]
  rfl

theorem sectionsFrom_some_append (hbody : quote ∉ body) (s : List Char) :
    sectionsFrom (some quote) (body ++ s) = (sectionsFrom (some quote) s).modifyHead (body ++ ·) := by
  induction body with
  | nil => exact (congrFun List.modifyHead_id _).symm
  | cons c body ih =>
      rw [List.mem_cons, not_or] at hbody
      have hc : ¬ c = quote := fun h => hbody.1 h.symm
      rw [List.cons_append, sectionsFrom, if_neg hc, onto_sectionsFrom, ih hbody.2, List.modifyHead_modifyHead]
      rfl

theorem map_splitOn_cons {x : Lexeme} (hx : x ≠ semicolon) (xs : List Lexeme) :
    ((x :: xs).splitOn semicolon).map (·.flatMap text) =
      ((xs.splitOn semicolon).map (·.flatMap text)).modifyHead (x.text ++ ·) := by
  have hbeq : ¬ (x == semicolon) = true := by rwa [beq_iff_eq]
  obtain ⟨first, rest, h⟩ := List.exists_cons_of_ne_nil (List.splitOn_ne_nil semicolon xs)
  rw [List.splitOn_cons_eq_if_modifyHead, if_neg hbeq, h]
  rfl

/-- The sections are what stands between the pieces that are semicolons. -/
theorem sections_eq_map_splitOn (s : List Char) :
    sections s = ((lexemes s).splitOn semicolon).map (·.flatMap text) := by
  rw [sections]
  induction s using lexeme_induction with
  | nil => simp [lexemes, sectionsFrom]
  | plain c s hquote hslash ih =>
      rw [sectionsFrom_cons hslash, hquote, if_neg Bool.false_ne_true, lexemes_plain hquote hslash]
      by_cases hc : c = ';'
      · subst hc
        have hbeq : (plain ';' == semicolon) = true := rfl
        rw [if_pos rfl, List.splitOn_cons_eq_if_modifyHead, if_pos hbeq, List.map_cons, ih]
        rfl
      · have hne : plain c ≠ semicolon := fun h => hc (Lexeme.plain.inj h)
        rw [if_neg hc, onto_sectionsFrom, map_splitOn_cons hne, ih]
        rfl
  | escaped c s ih =>
      have hne : escaped c ≠ semicolon := by rintro ⟨⟩
      have hsections : sectionsFrom none ('\\' :: c :: s) = onto '\\' (onto c (sectionsFrom none s)) := by
        rw [sectionsFrom]
      rw [hsections, onto_sectionsFrom, lexemes, map_splitOn_cons hne, ← ih]
      obtain ⟨first, rest, h⟩ := List.exists_cons_of_ne_nil (sectionsFrom_ne_nil none s)
      rw [h]
      rfl
  | quoted quote body s hquote hbody ih =>
      have hne : quoted quote body ≠ semicolon := by rintro ⟨⟩
      rw [lexemes_quoted hquote hbody, map_splitOn_cons hne, ← ih, sectionsFrom_isQuote hquote,
        sectionsFrom_some_append hbody, sectionsFrom, if_pos rfl]
      obtain ⟨first, rest, h⟩ := List.exists_cons_of_ne_nil (sectionsFrom_ne_nil none s)
      rw [h]
      simp [onto, text]
  | dangling =>
      have hne : dangling ≠ semicolon := by rintro ⟨⟩
      simp [lexemes, sectionsFrom, map_splitOn_cons hne, text]
  | unclosed quote body hquote hbody =>
      have hne : unclosed quote body ≠ semicolon := by rintro ⟨⟩
      have hopen := sectionsFrom_some_append hbody []
      rw [List.append_nil] at hopen
      rw [lexemes_unclosed hquote hbody, map_splitOn_cons hne, sectionsFrom_isQuote hquote, hopen]
      simp [sectionsFrom, onto, text]

theorem lexemes_append (h : ∀ x ∈ lexemes s, x.isComplete = true) (t : List Char) :
    lexemes (s ++ t) = lexemes s ++ lexemes t := by
  induction s using lexeme_induction with
  | nil => simp [lexemes]
  | plain c s hquote hslash ih =>
      rw [lexemes_plain hquote hslash] at h ⊢
      rw [List.cons_append, lexemes_plain hquote hslash, ih (List.forall_mem_cons.mp h).2, List.cons_append]
  | escaped c s ih =>
      rw [lexemes] at h ⊢
      rw [List.cons_append, List.cons_append, lexemes, ih (List.forall_mem_cons.mp h).2, List.cons_append]
  | quoted quote body s hquote hbody ih =>
      rw [lexemes_quoted hquote hbody] at h ⊢
      rw [List.cons_append, List.append_assoc, List.cons_append, lexemes_quoted hquote hbody,
        ih (List.forall_mem_cons.mp h).2, List.cons_append]
  | dangling =>
      have hdangling : isComplete dangling = true := h dangling (by simp [lexemes])
      cases hdangling
  | unclosed quote body hquote hbody =>
      rw [lexemes_unclosed hquote hbody, List.forall_mem_singleton] at h
      cases h

theorem flatMap_text_intercalate (pieces : List (List Lexeme)) :
    ([semicolon].intercalate pieces).flatMap text = [';'].intercalate (pieces.map (·.flatMap text)) := by
  induction pieces with
  | nil => rfl
  | cons first rest ih =>
      cases rest with
      | nil => simp
      | cons next rest =>
          rw [List.map_cons] at ih ⊢
          rw [List.map_cons, List.intercalate_cons_cons, List.intercalate_cons_cons, List.flatMap_append, ih,
            List.flatMap_append]
          rfl

theorem lexemes_intercalate {l : List (List Char)} (h : ∀ s ∈ l, IsSection s) :
    lexemes ([';'].intercalate l) = [semicolon].intercalate (l.map lexemes) := by
  induction l with
  | nil => simp [lexemes]
  | cons first rest ih =>
      rw [List.forall_mem_cons] at h
      cases rest with
      | nil => simp
      | cons next rest =>
          have hrest := ih h.2
          rw [List.map_cons] at hrest ⊢
          rw [List.map_cons, List.intercalate_cons_cons, List.intercalate_cons_cons, List.append_assoc,
            lexemes_append h.1.isComplete, List.singleton_append, lexemes_plain rfl (by decide), hrest,
            List.append_assoc]
          rfl

theorem intercalate_sections (s : List Char) : [';'].intercalate (sections s) = s := by
  rw [sections_eq_map_splitOn, ← flatMap_text_intercalate, List.intercalate_splitOn, flatMap_text_lexemes]

theorem sections_intercalate {l : List (List Char)} (hne : l ≠ []) (h : ∀ s ∈ l, IsSection s) :
    sections ([';'].intercalate l) = l := by
  have hsplit : ([semicolon].intercalate (l.map lexemes)).splitOn semicolon = l.map lexemes := by
    refine List.splitOn_intercalate semicolon ?_ (by rwa [ne_eq, List.map_eq_nil_iff])
    rw [List.forall_mem_map]
    exact fun s hs => (h s hs).not_mem
  have htext : (fun s => (lexemes s).flatMap text) = id := funext flatMap_text_lexemes
  rw [sections_eq_map_splitOn, lexemes_intercalate h, hsplit, List.map_map]
  exact (congrArg (List.map · l) htext).trans (List.map_id l)

/-- The pieces that become tokens make up the whole format. With semicolons between them its sections are the format
again, and sections in which every semicolon is quoted or escaped are found again. -/
theorem sections_agree_with_tokens :
    (∀ s, (lexemes s).flatMap text = s ∧ (lexemes s).map token = tokens s) ∧
      (∀ s, [';'].intercalate (sections s) = s) ∧
      ∀ l, l ≠ [] → (∀ s ∈ l, IsSection s) → sections ([';'].intercalate l) = l :=
  ⟨fun s => ⟨flatMap_text_lexemes s, map_token_lexemes s⟩, intercalate_sections,
    fun _ hne h => sections_intercalate hne h⟩

theorem sections_agree_with_tokens_mixed :
    sections "0';'#;\\;0.0;\"it's ;\"\\''\\'".toList =
      ["0';'#".toList, "\\;0.0".toList, "\"it's ;\"\\''\\'".toList] := by
  have hsections : ∀ s ∈ ["0';'#".toList, "\\;0.0".toList, "\"it's ;\"\\''\\'".toList], IsSection s := by
    rw [List.forall_mem_cons, List.forall_mem_cons, List.forall_mem_singleton]
    exact ⟨isSection_iff.mpr (by decide +kernel), isSection_iff.mpr (by decide +kernel),
      isSection_iff.mpr (by decide +kernel)⟩
  exact sections_agree_with_tokens.2.2 _ (List.cons_ne_nil _ _) hsections

end Phrasebook.Number
