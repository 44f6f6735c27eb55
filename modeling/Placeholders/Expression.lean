import Placeholders.Text.Blank

set_option autoImplicit false

/- Placeholder expressions, `[(cast)]name[:argument,argument...]`. A cast is letters,
digits, `_` and `.`; a name may also hold parentheses, so `(x)` alone is a name while
`(x)y` is a cast of `y`: the reading with a cast wins whenever it covers the whole text. -/
namespace Placeholders

structure Expression where
  cast : Option String
  name : String
  arguments : List String
  deriving DecidableEq

namespace Expression

def isCastChar (c : Char) : Bool :=
  c.isAlphanum || c == '_' || c == '.'

def isNameChar (c : Char) : Bool :=
  isCastChar c || c == '(' || c == ')'

def isArgumentChar (c : Char) : Bool :=
  isCastChar c || c == ',' || c == '+' || c == '-' || c == '\'' || c == ' ' || c == '\t'

/-- The pieces of a text between its commas; there is always at least one. -/
def commaPieces : List Char → List (List Char)
  | [] => [[]]
  | c :: cs =>
      if c = ',' then [] :: commaPieces cs else (commaPieces cs).modifyHead (c :: ·)

/-- The arguments of a clause: its comma-separated pieces without surrounding white space.
A blank clause has none. -/
def splitArguments (clause : List Char) : List String :=
  if Text.isBlankText clause then []
  else (commaPieces clause).map fun piece => String.ofList (Text.trim piece)

/-- Reads what follows the name: nothing, or `:` and an argument clause to the end. -/
def readArguments? : List Char → Option (List String)
  | [] => some []
  | ':' :: clause => if clause.all isArgumentChar then some (splitArguments clause) else none
  | _ :: _ => none

/-- Reads `name[:arguments]` under a given cast. -/
def readName? (cast : Option String) (cs : List Char) : Option Expression :=
  let name := cs.takeWhile isNameChar
  if name = [] then none
  else
    (readArguments? (cs.dropWhile isNameChar)).map fun arguments =>
      ⟨cast, String.ofList name, arguments⟩

/-- Splits `(cast)` off the text. -/
def takeCast? : List Char → Option (List Char × List Char)
  | '(' :: cs =>
      match cs.takeWhile isCastChar, cs.dropWhile isCastChar with
      | c :: cast, ')' :: rest => some (c :: cast, rest)
      | _, _ => none
  | _ => none

/-- Reads a whole text as an expression, with a cast if that is possible. -/
def read? (cs : List Char) : Option Expression :=
  ((takeCast? cs).bind fun (cast, rest) => readName? (some (String.ofList cast)) rest) <|>
    readName? none cs

def parse? (s : String) : Option Expression :=
  read? s.toList

/-- The normal form of an expression. -/
def text (e : Expression) : String :=
  (match e.cast with | some cast => "(" ++ cast ++ ")" | none => "") ++ e.name ++
    if e.arguments = [] then "" else ":" ++ ",".intercalate e.arguments

end Expression

end Placeholders
