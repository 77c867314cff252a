import Phrasebook.Text.CaseTables

namespace Phrasebook.Text

def inRanges (ranges : List (Nat × Nat)) (c : Char) : Bool :=
  ranges.any fun (first, last) => first ≤ c.toNat && c.toNat ≤ last

def shifted (table : List (Nat × Nat × Nat × Int)) (c : Char) : Char :=
  match table.find? fun (first, last, step, _) =>
      first ≤ c.toNat && c.toNat ≤ last && (c.toNat - first) % step == 0 with
  | some (_, _, _, distance) => Char.ofNat (c.toNat + distance).toNat
  | none => c

def isCased (c : Char) : Bool := inRanges CaseTables.cased c

def nextIsCased : List Char → Bool
  | [] => false
  | c :: rest => if inRanges CaseTables.ignorable c then nextIsCased rest else isCased c

inductive Casing where
  | common
  | turkish
  | lithuanian
  | greek
  | armenian
deriving DecidableEq, Repr

namespace Casing

def of (language : String) : Casing :=
  match language with
  | "tr" | "az" => turkish
  | "lt" => lithuanian
  | "el" => greek
  | "hy" => armenian
  | _ => common

def dotAbove : Char := '\u0307'

def isElsewhere (c : Char) : Bool := inRanges CaseTables.markElsewhere c

def moreAbove (after : List Char) : Bool :=
  (after.dropWhile isElsewhere).head?.any (inRanges CaseTables.markAbove)

def dotFollows (after : List Char) : Bool :=
  (after.dropWhile isElsewhere).head? == some dotAbove

def afterCapitalI (before : List Char) : Bool :=
  (before.dropWhile isElsewhere).head? == some 'I'

def afterSoftDotted (before : List Char) : Bool :=
  (before.dropWhile isElsewhere).head?.any (inRanges CaseTables.softDotted)

/-- The lower case of a character anywhere; a sigma that ends a word has a form of its own. -/
def lowerCommon (before : List Char) (c : Char) (after : List Char) : List Char :=
  if c.toNat < 128 then [c.toLower]
  else if c = 'İ' then ['i', dotAbove]
  else if c = 'Σ' then if nextIsCased before && !nextIsCased after then ['ς'] else ['σ']
  else [shifted CaseTables.lower c]

def lowerTurkish (before : List Char) (c : Char) (after : List Char) : List Char :=
  if c = 'İ' then ['i']
  else if c = dotAbove ∧ afterCapitalI before then []
  else if c = 'I' ∧ ¬ dotFollows after then ['ı']
  else lowerCommon before c after

/-- A small i keeps its dot under further accents. -/
def lowerLithuanian (before : List Char) (c : Char) (after : List Char) : List Char :=
  match c with
  | 'Ì' => ['i', dotAbove, '\u0300']
  | 'Í' => ['i', dotAbove, '\u0301']
  | 'Ĩ' => ['i', dotAbove, '\u0303']
  | _ =>
    if (c = 'I' ∨ c = 'J' ∨ c = 'Į') ∧ moreAbove after then lowerCommon before c after ++ [dotAbove]
    else lowerCommon before c after

def lowerAt (casing : Casing) : (before : List Char) → Char → (after : List Char) → List Char :=
  match casing with
  | turkish => lowerTurkish
  | lithuanian => lowerLithuanian
  | _ => lowerCommon

def upperCommon (c : Char) : List Char :=
  if c.toNat < 128 then [c.toUpper]
  else
    match CaseTables.longUpper.find? fun (code, _) => code == c.toNat with
    | some (_, codes) => codes.map Char.ofNat
    | none => [shifted CaseTables.upper c]

structure GreekMarks where
  accent : Bool
  dialytika : Bool
  iota : Bool
deriving DecidableEq, Repr

def greekLetter? (c : Char) : Option (Char × GreekMarks) :=
  (CaseTables.greek.find? fun (code, _) => code == c.toNat).map
    fun (_, base, accent, dialytika, iota) => (Char.ofNat base, ⟨accent, dialytika, iota⟩)

def isGreekLetter (c : Char) : Bool := inRanges CaseTables.greekLetters c

def isAccent (c : Char) : Bool :=
  c ∈ ['\u0300', '\u0301', '\u0302', '\u0303', '\u0311', '\u0342', '\u0344']

def isDialytika (c : Char) : Bool :=
  c == '\u0308' || c == '\u0344'

def isLostMark (c : Char) : Bool :=
  isAccent c || isDialytika c || c ∈ ['\u0304', '\u0306', '\u0313', '\u0314', '\u0343']

/-- The iota below, which is no lost mark: it becomes a capital letter of its own. -/
def isIota (c : Char) : Bool :=
  c == '\u0345'

def isGreekMark (c : Char) : Bool :=
  isLostMark c || isIota c

def combiningMarks (after : List Char) : GreekMarks :=
  let marks := after.takeWhile isGreekMark
  ⟨marks.any isAccent, marks.any isDialytika, marks.any isIota⟩

def followsGreekLetter (before : List Char) : Bool :=
  (before.dropWhile isGreekMark).head?.any isGreekLetter

/-- If the vowel before has an accent and no dialytika, whether the accent is a combining one. A
combining iota below stands between the vowels as a letter does. -/
def accentBefore? (before : List Char) : Option Bool :=
  match (before.dropWhile isLostMark).head?.bind greekLetter? with
  | some (base, own) =>
    let combining := combiningMarks (before.takeWhile isLostMark)
    if base = 'Ρ' ∨ own.dialytika ∨ combining.dialytika then none
    else if combining.accent then some true
    else if own.accent then some false
    else none
  | none => none

/-- A capital vowel: accents go, but a dialytika stays, and one is added where the accent that goes
kept two vowels apart. A lone eta keeps its accent. -/
def upperGreekVowel (before : List Char) (base : Char) (own : GreekMarks) (after : List Char) :
    List Char :=
  let combining := combiningMarks after
  let isClosing := base = 'Ι' ∨ base = 'Υ'
  let parted :=
    if isClosing ∧ ¬ own.dialytika ∧ ¬ combining.dialytika then accentBefore? before else none
  let isJoined := isClosing ∧ (own.dialytika ∨ parted = some false)
  let isLone := !nextIsCased before && !nextIsCased after
  let keepsAccent := base = 'Η' ∧ isLone ∧ ¬ own.iota ∧ ¬ combining.iota
  let letter :=
    if keepsAccent ∧ own.accent then ['Ή']
    else if keepsAccent ∧ combining.accent then ['Η', '\u0301']
    else if isJoined then [if base = 'Ι' then 'Ϊ' else 'Ϋ']
    else [base]
  let dialytika :=
    if ¬ isJoined ∧ (own.dialytika ∨ combining.dialytika ∨ parted = some true) then ['\u0308']
    else []
  letter ++ dialytika ++ (if own.iota then ['Ι'] else [])

def upperGreek (before : List Char) (c : Char) (after : List Char) : List Char :=
  match greekLetter? c with
  | some (base, own) => if base = 'Ρ' then ['Ρ'] else upperGreekVowel before base own after
  | none => if isLostMark c ∧ followsGreekLetter before then [] else upperCommon c

def upperAt (casing : Casing) (before : List Char) (c : Char) (after : List Char) : List Char :=
  match casing with
  | turkish => if c = 'i' then ['İ'] else upperCommon c
  | lithuanian => if c = dotAbove ∧ afterSoftDotted before then [] else upperCommon c
  | armenian => if c = 'և' then ['Ե', 'Վ'] else upperCommon c
  | greek => upperGreek before c after
  | common => upperCommon c

/-- Maps every character in sight of what stands before it, last character first, and after it. -/
def mapInContext (f : List Char → Char → List Char → List Char) :
    (before : List Char) → List Char → List Char
  | _, [] => []
  | before, c :: after => f before c after ++ mapInContext f (c :: before) after

end Casing

def lower (casing : Casing) (s : List Char) : List Char :=
  Casing.mapInContext casing.lowerAt [] s

def upper (casing : Casing) (s : List Char) : List Char :=
  Casing.mapInContext casing.upperAt [] s

def lowered (s : String) : String :=
  String.ofList (lower .common s.toList)

end Phrasebook.Text
