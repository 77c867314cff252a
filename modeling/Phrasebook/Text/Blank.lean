namespace Phrasebook.Text

/-- White space as the Unicode property has it. -/
def isBlank (c : Char) : Bool :=
  ('\t' ≤ c && c ≤ '\r') || c == ' ' || c == '\u0085' || c == '\u00a0' || c == '\u1680' ||
    ('\u2000' ≤ c && c ≤ '\u200a') || c == '\u2028' || c == '\u2029' || c == '\u202f' ||
    c == '\u205f' || c == '\u3000'

def trimStart (s : List Char) : List Char :=
  s.dropWhile isBlank

def trimEnd (s : List Char) : List Char :=
  (s.reverse.dropWhile isBlank).reverse

def trim (s : List Char) : List Char :=
  trimEnd (trimStart s)

def trimmed (s : String) : String :=
  String.ofList (trim s.toList)

theorem trimStart_length_le (s : List Char) : (trimStart s).length ≤ s.length :=
  (List.dropWhile_suffix isBlank).length_le

theorem trimEnd_length_le (s : List Char) : (trimEnd s).length ≤ s.length := by
  have h := (List.dropWhile_suffix isBlank (l := s.reverse)).length_le
  simpa [trimEnd] using h

theorem trim_length_le (s : List Char) : (trim s).length ≤ s.length :=
  Nat.le_trans (trimEnd_length_le _) (trimStart_length_le s)

end Phrasebook.Text
