import Phrasebook.Text.Blank

namespace Phrasebook

inductive Connective where
  | and
  | or
deriving DecidableEq, Repr

namespace Connective

def name : Connective → String
  | and => "and"
  | or => "or"

def holds : Connective → Bool → Bool → Bool
  | and, p, q => p && q
  | or, p, q => p || q

def closesAtEnd : (depth : Nat) → List Char → Bool
  | _, [] => false
  | depth, '(' :: s => closesAtEnd (depth + 1) s
  | depth, ')' :: s => if depth = 0 then s.isEmpty else closesAtEnd (depth - 1) s
  | depth, _ :: s => closesAtEnd depth s

def stripParentheses (s : List Char) : List Char :=
  match _h : Text.trim s with
  | '(' :: rest =>
    if closesAtEnd 0 rest then stripParentheses rest.dropLast else '(' :: rest
  | rest => rest
termination_by s.length
decreasing_by
  have := Text.trim_length_le s
  simp only [_h, List.length_cons] at this
  simp only [List.length_dropLast]
  omega

/-- What follows a word and a blank, the blanks taken off. Letter case does not count. -/
def afterWord? : (word : List Char) → List Char → Option (List Char)
  | [], c :: s => if Text.isBlank c then some (Text.trimStart s) else none
  | w :: word, c :: s => if c.toLower = w then afterWord? word s else none
  | _, [] => none

def at? (s : List Char) : Option (Connective × List Char) :=
  match afterWord? ['a', 'n', 'd'] (Text.trimStart s) with
  | some right => some (and, right)
  | none => (afterWord? ['o', 'r'] (Text.trimStart s)).map fun right => (or, right)

def depthAfter (depth : Nat) (c : Char) : Nat :=
  if c = '(' then depth + 1 else if c = ')' then depth - 1 else depth

def here? (depth : Nat) (s : List Char) : Option (Connective × List Char) :=
  if s.head?.any Text.isBlank ∧ depth = 0 then at? s else none

/-- Splits at the first connective between blanks that stands outside all parentheses. -/
def split? : (depth : Nat) → List Char → Option (List Char × Connective × List Char)
  | _, [] => none
  | depth, c :: s =>
    ((here? depth (c :: s)).map fun found => ([], found)) <|>
      (split? (depthAfter depth c) s).map fun (left, found) => (c :: left, found)

theorem stripParentheses_length_le (s : List Char) : (stripParentheses s).length ≤ s.length := by
  fun_induction stripParentheses s with
  | case1 s rest h hc ih =>
    have := Text.trim_length_le s
    simp only [h, List.length_cons] at this
    simp only [List.length_dropLast] at ih
    omega
  | case2 s rest h hc =>
    have := Text.trim_length_le s
    rwa [h] at this
  | case3 s => exact Text.trim_length_le s

theorem afterWord?_length_lt {word s right : List Char} (h : afterWord? word s = some right) :
    right.length < s.length := by
  induction word generalizing s with
  | nil =>
    cases s with
    | nil => simp [afterWord?] at h
    | cons c s =>
      have := Text.trimStart_length_le s
      simp only [afterWord?, Option.ite_none_right_eq_some, Option.some.injEq] at h
      simp only [← h.2, List.length_cons]
      omega
  | cons w word ih =>
    cases s with
    | nil => simp [afterWord?] at h
    | cons c s =>
      simp only [afterWord?, Option.ite_none_right_eq_some] at h
      have := ih h.2
      simp only [List.length_cons]
      omega

theorem at?_length_lt {s right : List Char} {connective : Connective}
    (h : at? s = some (connective, right)) : right.length < s.length := by
  have hs := Text.trimStart_length_le s
  unfold at? at h
  split at h
  · next ha =>
    cases h
    have := afterWord?_length_lt ha
    omega
  · obtain ⟨r, hr, he⟩ := Option.map_eq_some_iff.1 h
    cases he
    have := afterWord?_length_lt hr
    omega

theorem split?_length_lt {depth : Nat} {s left right : List Char} {connective : Connective}
    (h : split? depth s = some (left, connective, right)) :
    left.length < s.length ∧ right.length < s.length := by
  induction s generalizing depth left with
  | nil => simp [split?] at h
  | cons c s ih =>
    simp only [split?, Option.orElse_eq_orElse, Option.orElse_eq_or, Option.or_eq_some_iff] at h
    rcases h with h | ⟨-, h⟩
    · obtain ⟨found, hf, he⟩ := Option.map_eq_some_iff.1 h
      cases he
      simp only [here?, Option.ite_none_right_eq_some] at hf
      exact ⟨Nat.succ_pos _, at?_length_lt hf.2⟩
    · obtain ⟨⟨l, found⟩, hf, he⟩ := Option.map_eq_some_iff.1 h
      cases he
      have := ih hf
      simp only [List.length_cons]
      omega

end Connective

end Phrasebook
