import Phrasebook.Text.Literal

namespace Phrasebook.Text

def escaped? : Char → Option Char
  | '"' => some '"'
  | '\\' => some '\\'
  | '/' => some '/'
  | 'b' => some '\x08'
  | 'f' => some '\x0c'
  | 'n' => some '\n'
  | 'r' => some '\r'
  | 't' => some '\t'
  | _ => none

def hexValue? (c : Char) : Option Nat :=
  if c.isDigit then some (c.toNat - '0'.toNat)
  else if 'a' ≤ c ∧ c ≤ 'f' then some (c.toNat - 'a'.toNat + 10)
  else if 'A' ≤ c ∧ c ≤ 'F' then some (c.toNat - 'A'.toNat + 10)
  else none

def codeUnit? (digits : List Char) : Option Nat :=
  digits.foldlM (fun n c => (hexValue? c).map (16 * n + ·)) 0

def IsVerbatim (c : Char) : Prop :=
  c ≠ '"' ∧ c ≠ '\\' ∧ 32 ≤ c.toNat

instance (c : Char) : Decidable (IsVerbatim c) :=
  inferInstanceAs (Decidable (_ ∧ _))

/-- Reads what stands between the quotes of a string by the rules of JSON. Characters from other planes
are two code units. -/
def unescape : List Char → Option (List Char)
  | [] => some []
  | '\\' :: 'u' :: a :: b :: c :: d :: s =>
    match codeUnit? [a, b, c, d] with
    | none => none
    | some n =>
      if n < 0xd800 ∨ 0xdfff < n then (unescape s).map (Char.ofNat n :: ·)
      else
        match s with
        | '\\' :: 'u' :: a :: b :: c :: d :: s =>
          match codeUnit? [a, b, c, d] with
          | none => none
          | some m =>
            if n < 0xdc00 ∧ 0xdc00 ≤ m ∧ m ≤ 0xdfff then
              (unescape s).map (Char.ofNat (0x10000 + (n - 0xd800) * 0x400 + (m - 0xdc00)) :: ·)
            else none
        | _ => none
  | '\\' :: c :: s =>
    match escaped? c with
    | none => none
    | some c => (unescape s).map (c :: ·)
  | c :: s => if IsVerbatim c then (unescape s).map (c :: ·) else none

theorem literalChar_cases (c : Char) :
    (∃ x, literalChar c = ['\\', x] ∧ x ≠ 'u' ∧ 32 ≤ x.toNat ∧ escaped? x = some c) ∨
    (∃ a b d e, literalChar c = ['\\', 'u', a, b, d, e] ∧ (∀ x ∈ [a, b, d, e], IsVerbatim x) ∧
      codeUnit? [a, b, d, e] = some c.toNat ∧ c.toNat < 32) ∨
    literalChar c = [c] ∧ IsVerbatim c := by
  unfold literalChar
  split
  case h_8 hquote hbackslash _ _ _ _ _ =>
    split
    next hcontrol =>
      have hdigits : ∀ n < 32, padLeft '0' 4 (hexDigits n) = ['0', '0', (n / 16).digitChar, (n % 16).digitChar] ∧
          (∀ x ∈ ['0', '0', (n / 16).digitChar, (n % 16).digitChar], IsVerbatim x) ∧
          codeUnit? ['0', '0', (n / 16).digitChar, (n % 16).digitChar] = some n := by decide
      obtain ⟨hpad, hverbatim, hunit⟩ := hdigits _ hcontrol
      rw [hpad]
      exact .inr (.inl ⟨_, _, _, _, rfl, hverbatim, hunit, hcontrol⟩)
    next hcontrol => exact .inr (.inr ⟨rfl, hquote, hbackslash, by omega⟩)
  all_goals exact .inl ⟨_, rfl, by decide, by decide, rfl⟩

theorem unescape_literalChar (c : Char) (s : List Char) :
    unescape (literalChar c ++ s) = (unescape s).map (c :: ·) := by
  rcases literalChar_cases c with ⟨x, hc, hu, -, hx⟩ | ⟨a, b, d, e, hc, -, hunit, hcontrol⟩ | ⟨hc, hverbatim⟩
  · rw [hc]
    simp [unescape, hu, hx]
  · rw [hc]
    simp [unescape, hunit, show c.toNat < 0xd800 by omega]
  · rw [hc]
    simp [unescape, hverbatim, hverbatim.2.1]

/-- What is written for a text between double quotes is read back as that text. -/
theorem unescape_flatMap_literalChar (s : List Char) : unescape (s.flatMap literalChar) = some s := by
  induction s with
  | nil => rfl
  | cons c s ih => rw [List.flatMap_cons, unescape_literalChar, ih, Option.map_some]

example : unescape "\\ud83d\\ude00 \\/\\u00e9".toList = some "😀 /é".toList := by decide +kernel

end Phrasebook.Text
