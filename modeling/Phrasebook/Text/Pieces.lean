namespace Phrasebook.Text

def splitOn (separator : Char) : List Char → List (List Char)
  | [] => [[]]
  | c :: rest =>
    if c == separator then [] :: splitOn separator rest
    else
      match splitOn separator rest with
      | [] => [[c]]
      | piece :: pieces => (c :: piece) :: pieces

def after? : (mark : List Char) → List Char → Option (List Char)
  | [], s => some s
  | _ :: _, [] => none
  | m :: mark, c :: s => if m == c then after? mark s else none

def splitOnce (mark : List Char) : List Char → Option (List Char × List Char)
  | [] => (after? mark []).map fun rest => ([], rest)
  | c :: rest =>
    match after? mark (c :: rest) with
    | some tail => some ([], tail)
    | none => (splitOnce mark rest).map fun (head, tail) => (c :: head, tail)

/-- Replaces the occurrences of a mark, read from the left without overlaps. -/
def replaceFrom (mark replacement : List Char) : Nat → List Char → List Char
  | _, [] => []
  | skip + 1, _ :: rest => replaceFrom mark replacement skip rest
  | 0, c :: rest =>
    if mark.isPrefixOf (c :: rest) then
      replacement ++ replaceFrom mark replacement (mark.length - 1) rest
    else c :: replaceFrom mark replacement 0 rest

def replace (text mark replacement : String) : String :=
  String.ofList (replaceFrom mark.toList replacement.toList 0 text.toList)

def lowerAscii (s : List Char) : List Char :=
  s.map Char.toLower

def equalIgnoringCase (s t : List Char) : Bool :=
  lowerAscii s == lowerAscii t

def joined (separator : String) : List String → String
  | [] => ""
  | [s] => s
  | s :: rest => s ++ separator ++ joined separator rest

def padLeft (fill : Char) (width : Nat) (s : List Char) : List Char :=
  List.replicate (width - s.length) fill ++ s

def decimalDigits (n : Nat) : List Char :=
  Nat.toDigits 10 n

def padded (n width : Nat) : String :=
  String.ofList (padLeft '0' width (decimalDigits n))

def enclosed? (opening closing : Char) : List Char → Option (List Char)
  | [] => none
  | c :: rest => if c = opening ∧ rest.getLast? = some closing then some rest.dropLast else none

theorem enclosed?_length_lt {opening closing : Char} {s inner : List Char}
    (h : enclosed? opening closing s = some inner) : inner.length < s.length := by
  cases s with
  | nil => simp [enclosed?] at h
  | cons c rest =>
    simp only [enclosed?, Option.ite_none_right_eq_some, Option.some.injEq] at h
    simp only [← h.2, List.length_dropLast, List.length_cons]
    omega

theorem length_le_of_mem_splitOn {separator : Char} {s piece : List Char}
    (h : piece ∈ splitOn separator s) : piece.length ≤ s.length := by
  induction s generalizing piece with
  | nil => simp_all [splitOn]
  | cons c rest ih =>
    simp only [splitOn] at h
    split at h
    · rcases List.mem_cons.1 h with rfl | h
      · exact Nat.zero_le _
      · exact Nat.le_succ_of_le (ih h)
    · split at h
      · simp_all
      · next first pieces heq =>
        rw [heq] at ih
        rcases List.mem_cons.1 h with rfl | h
        · exact Nat.succ_le_succ (ih (List.mem_cons_self ..))
        · exact Nat.le_succ_of_le (ih (List.mem_cons_of_mem _ h))

end Phrasebook.Text
