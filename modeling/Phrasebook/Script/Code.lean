import Phrasebook.Decimal.Shortest
import Phrasebook.Script.Strategy
import Phrasebook.Text.Literal

namespace Phrasebook

namespace Script

inductive Bracket where
  | round
  | square
  | curly
deriving DecidableEq, Repr

inductive Code where
  | empty
  /-- Text of the script's language, without brackets. -/
  | word (s : String)
  | literal (s : String)
  | number (x : Float)
  | inside (bracket : Bracket) (content : Code)
  | append (first second : Code)
  /-- What is written where a strategy of some kind is asked for its code. -/
  | written (kind : StrategyKind) (content : Code)

instance : Inhabited Code := ⟨.empty⟩
instance : Append Code := ⟨.append⟩

def Bracket.opening : Bracket → Char
  | round => '('
  | square => '['
  | curly => '{'

def Bracket.closing : Bracket → Char
  | round => ')'
  | square => ']'
  | curly => '}'

/-- The script's language has names of its own for what is not finite. -/
def numberText (x : Float) : String :=
  if x.isInf then (if isSigned x then "-Infinity" else "Infinity") else floatText x

namespace Code

def chars : Code → List Char
  | empty => []
  | word s => s.toList
  | literal s => (Text.literal s).toList
  | number x => (numberText x).toList
  | inside bracket content => bracket.opening :: content.chars ++ [bracket.closing]
  | append first second => first.chars ++ second.chars
  | written _ content => content.chars

/-- The kinds of strategies that were asked for the code, in the order of the text. -/
def kinds : Code → List StrategyKind
  | inside _ content => content.kinds
  | append first second => first.kinds ++ second.kinds
  | written kind content => kind :: content.kinds
  | _ => []

def text (code : Code) : String :=
  String.ofList code.chars

def parens (content : Code) : Code := inside .round content
def brackets (content : Code) : Code := inside .square content
def braces (content : Code) : Code := inside .curly content

def separated (separator : String) : List Code → Code
  | [] => empty
  | [code] => code
  | code :: rest => code ++ word separator ++ separated separator rest

def list (items : List Code) : Code := brackets (separated "," items)

def call (function : String) (arguments : List Code) : Code :=
  word function ++ parens (separated "," arguments)

def function (parameters : String) (body : Code) : Code :=
  word "function" ++ parens (word parameters) ++ braces body

def returning (parameters : String) (value : Code) : Code :=
  function parameters (word "return " ++ value ++ word ";")

def immediate (body : Code) : Code :=
  parens (function "" body) ++ parens empty

def concatenation (items : List Code) : Code :=
  list items ++ word ".join" ++ parens (word "''")

/-- A number as an operand, where a sign needs parentheses. -/
def operand (x : Float) : Code :=
  if (numberText x).toList.head? = some '-' then parens (number x) else number x

end Code

end Script

end Phrasebook
