import Phrasebook.Text.Blank
import Phrasebook.Pattern.Expression
import Phrasebook.Pattern.Position

namespace Phrasebook.Reader

def textStops : List Char := ['{', '}', '|', '#', '<', '>']
def nameStops : List Char := ['{', '}', '|', ':', '<', '>']
def formatStops : List Char := ['{', '}']
def templateStops : List Char := ['{', '}', '(', ')']
def templatedNameStops : List Char := ['{', '}', '(', ')', ':']

/-- Text up to the first unescaped stop. A backslash at the very end stands for itself. -/
def readText (stops : List Char) : List Char → List Char × List Char
  | [] => ([], [])
  | ['\\'] => (['\\'], [])
  | '\\' :: c :: rest =>
    let (text, rest) := readText stops rest
    (c :: text, rest)
  | c :: rest =>
    if c ∈ stops then ([], c :: rest)
    else
      let (text, rest) := readText stops rest
      (c :: text, rest)

/-- The first unescaped one of some marks; it decides how the text before it is read. -/
def firstOf (marks : List Char) : List Char → Option Char
  | [] => none
  | ['\\'] => none
  | '\\' :: _ :: rest => firstOf marks rest
  | c :: rest => if c ∈ marks then some c else firstOf marks rest

theorem readText_length_le (stops s : List Char) : (readText stops s).2.length ≤ s.length := by
  fun_induction readText stops s <;> simp_all <;> omega

theorem readText_length_lt {stops : List Char} {c : Char} {rest : List Char} (h : c ∉ stops) :
    (readText stops (c :: rest)).2.length < (c :: rest).length := by
  by_cases hc : c = '\\'
  · subst hc
    cases rest with
    | nil => simp [readText]
    | cons d ds =>
      have := readText_length_le stops ds
      simp [readText]
      omega
  · have := readText_length_le stops rest
    simp [readText, hc, h]
    omega

structure Stop where
  construct : Construct
  fault : ReadFault
  rest : List Char

abbrev Rest (s : List Char) := { r : List Char // r.length ≤ s.length }

abbrev Tail (s : List Char) := { r : List Char // r.length < s.length }

def text (stops s : List Char) : String × Rest s :=
  (String.ofList (readText stops s).1, ⟨(readText stops s).2, readText_length_le stops s⟩)

def someText {stops : List Char} {c : Char} (s : List Char) (h : c ∉ stops) :
    String × Tail (c :: s) :=
  (String.ofList (readText stops (c :: s)).1,
    ⟨(readText stops (c :: s)).2, readText_length_lt h⟩)

def expect (c : Char) (construct : Construct) : (s : List Char) → Except Stop (Tail s)
  | [] => .error ⟨construct, .expected [c] none, []⟩
  | d :: rest =>
    if d = c then .ok ⟨rest, Nat.lt_succ_self _⟩
    else .error ⟨construct, .expected [c] (some d), d :: rest⟩

def formatAfterColon (stops : List Char) : (s : List Char) → String × Rest s
  | ':' :: s =>
    let (format, ⟨r, h⟩) := text stops s
    (format, ⟨r, Nat.le_succ_of_le h⟩)
  | s => ("", ⟨s, Nat.le_refl _⟩)

def reference (s : List Char) : Except Stop (Reference × Tail s) := do
  if firstOf ['(', ':', '}'] s = some '(' then
    let (name, ⟨r, h⟩) := text ['('] s
    let ⟨r, h⟩ : Rest s := match r, h with
      | _ :: r, h => ⟨r, Nat.le_of_lt h⟩
      | [], h => ⟨[], h⟩
    let (arguments, ⟨r, h₁⟩) := text [')'] r
    let ⟨r, h₂⟩ ← expect ')' .parameter r
    let (format, ⟨r, h₃⟩) := formatAfterColon formatStops r
    let ⟨r, h₄⟩ ← expect '}' .parameter r
    return (⟨name, format, some arguments⟩, ⟨r, by omega⟩)
  else
    let (name, ⟨r, h⟩) := text nameStops s
    let (format, ⟨r, h₁⟩) := formatAfterColon formatStops r
    let ⟨r, h₂⟩ ← expect '}' .parameter r
    return (⟨name, format, none⟩, ⟨r, by omega⟩)

def switchHead (s : List Char) : Except Stop ((Option String × Reference) × Tail s) := do
  if firstOf ['(', ':', '{'] s = some '(' then
    let (template, ⟨r, h⟩) := text templateStops s
    let ⟨r, h₁⟩ ← expect '(' .templatedSwitch r
    let (name, ⟨r, h₂⟩) := text templatedNameStops r
    let (format, ⟨r, h₃⟩) := formatAfterColon templateStops r
    let ⟨r, h₄⟩ ← expect ')' .templatedSwitch r
    let ⟨r, h₅⟩ ← expect '{' .switch r
    return ((some template, ⟨name, format, none⟩), ⟨r, by omega⟩)
  else
    let (name, ⟨r, h⟩) := text nameStops s
    let (format, ⟨r, h₁⟩) := formatAfterColon formatStops r
    let ⟨r, h₂⟩ ← expect '{' .switch r
    return ((none, ⟨name, format, none⟩), ⟨r, by omega⟩)

/-- The condition of a case, if a colon comes before anything that ends or nests. -/
def condition (s : List Char) : Option Expression × Rest s :=
  if firstOf ['{', '}', '|', ':'] s = some ':' then
    match text [':'] s with
    | (spelling, ⟨_ :: r, h⟩) => (some (Expression.ofText spelling), ⟨r, Nat.le_of_lt h⟩)
    | (spelling, ⟨[], h⟩) => (some (Expression.ofText spelling), ⟨[], h⟩)
  else (none, ⟨s, Nat.le_refl _⟩)

/-- An expression without parts is an empty text. -/
def orEmptyText : List Part → Expression
  | [] => Expression.ofText ""
  | parts => parts

mutual

def parts (s : List Char) : Except Stop (List Part × Rest s) :=
  match s with
  | [] => .ok ([], ⟨[], Nat.le_refl _⟩)
  | '{' :: s => do
    let (ref, ⟨r, h⟩) ← reference s
    let (more, ⟨r, h₁⟩) ← parts r
    return (.reference ref :: more, ⟨r, by simp only [List.length_cons]; omega⟩)
  | '#' :: s => do
    let ((template, subject), ⟨r, h⟩) ← switchHead s
    let ((cases, nullCase), ⟨r, h₁⟩) ← cases 0 r
    let (more, ⟨r, h₂⟩) ← parts r
    return (.switch subject template cases nullCase :: more,
      ⟨r, by simp only [List.length_cons]; omega⟩)
  | '<' :: s => do
    let (name, ⟨r, h⟩) := text nameStops s
    let (body, ⟨r, h₁⟩) ← groupBody r
    let ⟨r, h₂⟩ ← expect '>' .group r
    let (more, ⟨r, h₃⟩) ← parts r
    return (.group name body :: more, ⟨r, by simp only [List.length_cons]; omega⟩)
  | c :: s => do
    if hc : c ∈ textStops then
      return ([], ⟨c :: s, Nat.le_refl _⟩)
    else
      let (content, ⟨r, h⟩) := someText s hc
      have : r.length ≤ s.length := Nat.le_of_lt_succ h
      let (more, ⟨r, h₁⟩) ← parts r
      return (.text content :: more, ⟨r, by omega⟩)
termination_by 3 * s.length
decreasing_by all_goals simp only [List.length_cons] at *; omega

def groupBody (s : List Char) : Except Stop (Option Expression × Rest s) :=
  match s with
  | ':' :: s => do
    let (body, ⟨r, h⟩) ← parts s
    return (some (orEmptyText body), ⟨r, Nat.le_succ_of_le h⟩)
  | s => .ok (none, ⟨s, Nat.le_refl _⟩)
termination_by 3 * s.length + 1
decreasing_by all_goals simp only [List.length_cons] at *; omega

/-- The cases of a switch up to its closing brace. The last of several null cases counts. -/
def cases (index : Nat) (s : List Char) : Except Stop ((List Case × Option NullCase) × Tail s) :=
  match s with
  | '}' :: s => .ok (([], none), ⟨s, Nat.lt_succ_self _⟩)
  | s =>
    have hs : (s.dropWhile Text.isBlank).length ≤ s.length := Text.trimStart_length_le s
    match hb : s.dropWhile Text.isBlank with
    | '?' :: q => do
      have hq : (q.dropWhile Text.isBlank).length ≤ q.length := Text.trimStart_length_le q
      have hl : q.length + 1 ≤ s.length := by rw [hb] at hs; exact hs
      let (body, ⟨r, h⟩) ← parts (q.dropWhile Text.isBlank)
      let ((more, later), ⟨r, h₁⟩) ← moreCases index r
      return ((more, later <|> some ⟨index, orEmptyText body⟩), ⟨r, by omega⟩)
    | b => do
      have hl : b.length ≤ s.length := by rw [hb] at hs; exact hs
      let (spelling, ⟨r, h⟩) := condition b
      let (body, ⟨r, h₁⟩) ← parts r
      let ((more, later), ⟨r, h₂⟩) ← moreCases (index + 1) r
      return ((⟨spelling, orEmptyText body⟩ :: more, later), ⟨r, by omega⟩)
termination_by 3 * s.length + 2
decreasing_by all_goals omega

def moreCases (index : Nat) (s : List Char) :
    Except Stop ((List Case × Option NullCase) × Tail s) :=
  match s with
  | '}' :: s => .ok (([], none), ⟨s, Nat.lt_succ_self _⟩)
  | '|' :: s => do
    let (found, ⟨r, h⟩) ← cases index s
    return (found, ⟨r, Nat.lt_succ_of_lt h⟩)
  | [] => .error ⟨.switch, .expected ['|', '}'] none, []⟩
  | c :: s => .error ⟨.switch, .expected ['|', '}'] (some c), c :: s⟩
termination_by 3 * s.length
decreasing_by all_goals simp only [List.length_cons] at *; omega

end

def expression (s : List Char) : Except Stop Expression := do
  let (found, ⟨r, _⟩) ← parts s
  match r with
  | [] => return orEmptyText found
  | c :: r => .error ⟨.expression, .unexpected c, c :: r⟩

def Stop.locate (s : List Char) (stop : Stop) : SyntaxError :=
  ⟨stop.construct, stop.fault, .after (s.take (s.length - stop.rest.length))⟩

end Phrasebook.Reader

namespace Phrasebook

def Expression.read (pattern : String) : Except SyntaxError Expression :=
  (Reader.expression pattern.toList).mapError (Reader.Stop.locate pattern.toList)

end Phrasebook
