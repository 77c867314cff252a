namespace Phrasebook

inductive Construct where
  | expression
  | parameter
  | group
  | switch
  | templatedSwitch
deriving DecidableEq, Repr

/-- Why reading stopped; `none` stands for the end of the text. -/
inductive ReadFault where
  | unexpected (found : Char)
  | expected (allowed : List Char) (found : Option Char)
deriving DecidableEq, Repr

structure Position where
  offset : Nat
  line : Nat
  column : Nat
deriving DecidableEq, Repr

structure SyntaxError where
  construct : Construct
  fault : ReadFault
  position : Position
deriving DecidableEq, Repr

def Construct.name : Construct → String
  | .expression => "expression"
  | .parameter => "parameter"
  | .group => "format group"
  | .switch => "switch"
  | .templatedSwitch => "templated switch"

def Position.advance : Position → List Char → Position
  | p, [] => p
  | p, c :: rest =>
    if c = '\n' then advance ⟨p.offset + c.utf8Size, p.line + 1, 1⟩ rest
    else advance ⟨p.offset + c.utf8Size, p.line, p.column + 1⟩ rest

def Position.after (consumed : List Char) : Position :=
  advance ⟨0, 1, 1⟩ consumed

def foundText : Option Char → String
  | some c => "'" ++ c.toString ++ "'"
  | none => "end of input"

def allowedText : List Char → String
  | [] => ""
  | [c] => "`" ++ c.toString ++ "`"
  | c :: rest => "`" ++ c.toString ++ "` or " ++ allowedText rest

def ReadFault.message : ReadFault → String
  | .unexpected c => "unexpected " ++ foundText (some c)
  | .expected allowed found =>
    "expected " ++ allowedText allowed ++ " but found " ++ foundText found

def SyntaxError.message (e : SyntaxError) : String :=
  "syntax error in " ++ e.construct.name ++ " at " ++ toString e.position.line ++ ":" ++
    toString e.position.column ++ ": " ++ e.fault.message

end Phrasebook
