namespace Phrasebook.Format

inductive Run where
  | literal (s : List Char)
  | field (c : Char) (count : Nat)
deriving DecidableEq, Repr

def runs : List Char → List Run
  | [] => []
  | c :: s =>
    have := (List.dropWhile_suffix (· != c) (l := s)).length_le
    have := (List.dropWhile_suffix (· == c) (l := s)).length_le
    if c = '\'' ∨ c = '"' then
      .literal (s.takeWhile (· != c)) :: runs (s.dropWhile (· != c)).tail
    else if c = '\\' then .literal (s.take 1) :: runs s.tail
    else .field c ((s.takeWhile (· == c)).length + 1) :: runs (s.dropWhile (· == c))
termination_by s => s.length
decreasing_by all_goals simp_wf; all_goals omega

end Phrasebook.Format
