namespace Phrasebook

/-- Number and date conventions. Dates and times are written as custom date formats. -/
structure Culture where
  decimalSeparator : String
  groupSeparator : String
  shortDate : String
  longDate : String
  shortTime : String
  longTime : String
  /-- Stands between a number and its percent sign. -/
  percentSpacing : String
deriving DecidableEq, Repr

namespace Culture

def invariant : Culture :=
  ⟨".", ",", "MM/dd/yyyy", "dddd, dd MMMM yyyy", "HH:mm", "HH:mm:ss", " "⟩

def known : List (String × Culture) :=
  [("en", ⟨".", ",", "M/d/yyyy", "dddd, MMMM d, yyyy", "h:mm tt", "h:mm:ss tt", ""⟩),
   ("en-GB", ⟨".", ",", "dd/MM/yyyy", "dd MMMM yyyy", "HH:mm", "HH:mm:ss", ""⟩),
   ("da", ⟨",", ".", "dd-MM-yyyy", "d. MMMM yyyy", "HH:mm", "HH:mm:ss", " "⟩),
   ("de", ⟨",", ".", "dd.MM.yyyy", "dddd, d. MMMM yyyy", "HH:mm", "HH:mm:ss", " "⟩),
   ("es", ⟨",", ".", "dd/MM/yyyy", "dddd, d 'de' MMMM 'de' yyyy", "H:mm", "H:mm:ss", " "⟩),
   ("fr", ⟨",", "\u202f", "dd/MM/yyyy", "dddd d MMMM yyyy", "HH:mm", "HH:mm:ss", "\u00a0"⟩),
   ("nl", ⟨",", ".", "d-M-yyyy", "dddd d MMMM yyyy", "HH:mm", "HH:mm:ss", " "⟩),
   ("sv", ⟨",", "\u00a0", "yyyy-MM-dd", "'den' d MMMM yyyy", "HH:mm", "HH:mm:ss", "\u00a0"⟩)]

end Culture

end Phrasebook
