namespace Phrasebook

inductive FormatError where
  | outOfRange (value low high : Int)
  | unsupported (kind expected : String)
  | invalidFormat (format : String)
deriving DecidableEq, Repr

def FormatError.message : FormatError → String
  | outOfRange value low high =>
    toString value ++ " is outside the range " ++ toString low ++ "..=" ++ toString high
  | unsupported kind expected => "cannot format " ++ kind ++ " value as " ++ expected
  | invalidFormat format => "invalid format string '" ++ format ++ "'"

end Phrasebook
