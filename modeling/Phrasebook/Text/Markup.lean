namespace Phrasebook.Text

def escapeHtmlChar : Char → List Char
  | '&' => ['&', 'a', 'm', 'p', ';']
  | '<' => ['&', 'l', 't', ';']
  | '>' => ['&', 'g', 't', ';']
  | '"' => ['&', 'q', 'u', 'o', 't', ';']
  | '\'' => ['&', '#', '3', '9', ';']
  | c => [c]

def escapeHtml (s : List Char) : List Char :=
  s.flatMap escapeHtmlChar

/-- The letters of a tag's name. Ignoring case, the long s and the Kelvin sign count as letters. -/
def isTagLetter (c : Char) : Bool :=
  c == '/' || ('a' ≤ c && c ≤ 'z') || ('A' ≤ c && c ≤ 'Z') || c == 'ſ' || c == '\u212a'

/-- A tag whose name a colon follows; it stays a group of the pattern. -/
def isGroupTag (body : List Char) : Bool :=
  (body.dropWhile isTagLetter).head? == some ':'

def hideTags : List Char → List Char
  | [] => []
  | '<' :: s =>
    if s.head?.any isTagLetter ∧ '>' ∈ s then
      let body := s.takeWhile (· != '>')
      let rest := (s.dropWhile (· != '>')).tail
      have := (List.dropWhile_suffix (· != '>') (l := s)).length_le
      if isGroupTag body then '<' :: body ++ '>' :: hideTags rest
      else "%%lt%%".toList ++ body ++ "%%gt%%".toList ++ hideTags rest
    else '<' :: hideTags s
  | c :: s => c :: hideTags s
termination_by s => s.length

def marked (name : List Char) : List Char :=
  if name = ['l', 't'] then ['<']
  else if name = ['g', 't'] then ['>']
  else '%' :: '%' :: name ++ ['%', '%']

def markerName? (s : List Char) : Option (List Char × List Char) :=
  match s.takeWhile (· != '%'), s.dropWhile (· != '%') with
  | name@(_ :: _), '%' :: '%' :: rest => some (name, rest)
  | _, _ => none

theorem markerName?_length_lt {s name rest : List Char} (h : markerName? s = some (name, rest)) :
    rest.length < s.length := by
  have hs := (List.dropWhile_suffix (· != '%') (l := s)).length_le
  unfold markerName? at h
  split at h
  · next hd =>
    cases h
    rw [hd] at hs
    simp at hs
    omega
  · simp at h

def restoreTags : List Char → List Char
  | [] => []
  | '%' :: '%' :: s =>
    match h : markerName? s with
    | some (name, rest) =>
      have : rest.length < s.length := markerName?_length_lt h
      marked name ++ restoreTags rest
    | none => '%' :: restoreTags ('%' :: s)
  | c :: s => c :: restoreTags s
termination_by s => s.length

end Phrasebook.Text
