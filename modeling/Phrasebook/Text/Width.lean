import Phrasebook.Text.Cluster
import Phrasebook.Text.WidthTables

namespace Phrasebook.Text

def charWidth (c : Char) : Nat :=
  if c = '\u115f' then 2
  else if inRanges WidthTables.hidden c || inRanges WidthTables.joined c then 0
  else if inRanges WidthTables.wide c then 2
  else if isExtender c then 0
  else 1

def isSkinTone (c : Char) : Bool :=
  inRanges [(0x1f3fb, 0x1f3ff)] c

def isPictograph (c : Char) : Bool :=
  inRanges ClusterTables.pictograph c || isDigit c || c == '#' || c == '*'
where
  isDigit (c : Char) : Bool := '0' ≤ c && c ≤ '9'

def pictureMark : Char := '\ufe0f'

/-- The columns of a character after another one. Pictures that join take no room of their own. -/
def widthAfter (previous c : Char) : Nat :=
  if c = pictureMark then
    if isPictograph previous && charWidth previous == 1 then 1 else 0
  else if isSkinTone c && inRanges ClusterTables.pictograph previous then 0
  else if previous = joiner ∧ inRanges ClusterTables.pictograph c then 0
  else if previous = '\r' ∧ c = '\n' then 0
  else charWidth c

def widthFrom : (previous : Char) → List Char → Nat
  | _, [] => 0
  | previous, c :: rest => widthAfter previous c + widthFrom c rest

def width (s : String) : Nat :=
  widthFrom ' ' s.toList

end Phrasebook.Text
