import Phrasebook.Text.Casing
import Phrasebook.Text.ClusterTables

namespace Phrasebook.Text

def joiner : Char := '\u200d'

def isExtender (c : Char) : Bool :=
  c == joiner || inRanges ClusterTables.extend c

def isMark (c : Char) : Bool :=
  isExtender c || inRanges ClusterTables.spacing c

def isControl (c : Char) : Bool :=
  inRanges ClusterTables.control c

def clusterTail (previous : Char) (pictures : Bool) : List Char → List Char × List Char
  | [] => ([], [])
  | c :: rest =>
    let isPicture := inRanges ClusterTables.pictograph c
    if isControl c then ([], c :: rest)
    else if isMark c then
      let (tail, rest) := clusterTail c (pictures && isExtender c) rest
      (c :: tail, rest)
    else if inRanges ClusterTables.prepended previous ||
        (pictures && previous == joiner && isPicture) then
      let (tail, rest) := clusterTail c isPicture rest
      (c :: tail, rest)
    else ([], c :: rest)

/-- The first character as a reader sees it, with all that belongs to it, and the rest. Scripts
without case would need finer rules, which no change of case can show. -/
def firstCluster : List Char → List Char × List Char
  | [] => ([], [])
  | c :: rest =>
    if isControl c || c == '\r' || c == '\n' then ([c], rest)
    else
      let (tail, rest) := clusterTail c (inRanges ClusterTables.pictograph c) rest
      (c :: tail, rest)

def capitalized (casing : Casing) (s : List Char) : List Char :=
  upper casing (firstCluster s).1 ++ lower casing (firstCluster s).2

end Phrasebook.Text
