import Placeholders.Data
import Placeholders.Decimal.Numeral

set_option autoImplicit false

/- Reading the TOML that sheets are written in: comments, tables, arrays of tables, and
one `key = value` a line, where a key is bare or quoted and a value is a string in double
or single quotes, an integer or a boolean. Each line is read by itself; then the lines are
gathered under their headers, and no name may be defined twice. -/
namespace Placeholders.Data.Toml

inductive Line where
  | blank
  | tableHeader (name : String)
  | arrayHeader (name : String)
  | entry (name : String) (value : Data)

def isSpace (c : Char) : Bool :=
  c == ' ' || c == '\t'

/-- Control characters other than the tab stand nowhere in a line. -/
def isControl (c : Char) : Bool :=
  (c.toNat < 0x20 && c != '\t') || c.toNat == 0x7F

def isBareKeyChar (c : Char) : Bool :=
  c.isAlphanum || c == '_' || c == '-'

def skipSpace (cs : List Char) : List Char :=
  cs.dropWhile isSpace

def isLineEnd (cs : List Char) : Bool :=
  match skipSpace cs with
  | [] => true
  | '#' :: comment => !comment.any isControl
  | _ => false

/-- The character of a code point, unless it is a surrogate or out of range. -/
def scalar? (n : Nat) : Option Char :=
  if h : n.isValidChar then some (Char.ofNatAux n h) else none

def hexDigit? (c : Char) : Option Nat :=
  if c.isDigit then some (c.toNat - '0'.toNat)
  else if 'a' ≤ c ∧ c ≤ 'f' then some (c.toNat - 'a'.toNat + 10)
  else if 'A' ≤ c ∧ c ≤ 'F' then some (c.toNat - 'A'.toNat + 10)
  else none

/-- The number that digits of a base write, each digit below the base. -/
def readBase? (base : Nat) (cs : List Char) : Option Nat :=
  cs.foldlM (fun n c => (hexDigit? c).bind fun d => if d < base then some (base * n + d) else none) 0

/-- The character of a code point in exactly `width` hexadecimal digits. -/
def readCodePoint? (width : Nat) (cs : List Char) : Option Char :=
  if cs.length = width then (readBase? 16 cs).bind scalar? else none

/-- Reads an escape after its backslash: the character and the number of characters read. -/
def readEscape? : List Char → Option (Char × Nat)
  | 'b' :: _ => some ('\x08', 1)
  | 't' :: _ => some ('\t', 1)
  | 'n' :: _ => some ('\n', 1)
  | 'f' :: _ => some ('\x0c', 1)
  | 'r' :: _ => some ('\r', 1)
  | '"' :: _ => some ('"', 1)
  | '\\' :: _ => some ('\\', 1)
  | 'u' :: cs => (readCodePoint? 4 (cs.take 4)).map (·, 5)
  | 'U' :: cs => (readCodePoint? 8 (cs.take 8)).map (·, 9)
  | _ => none

/-- Reads a string after its opening double quote, up to the closing one. The first argument
counts the characters of an escape that are still to be passed over. -/
def takeBasic? : Nat → List Char → Option (List Char × List Char)
  | _, [] => none
  | skip + 1, _ :: cs => takeBasic? skip cs
  | 0, '"' :: rest => some ([], rest)
  | 0, '\\' :: cs => do
      let (c, width) ← readEscape? cs
      let (text, rest) ← takeBasic? width cs
      return (c :: text, rest)
  | 0, c :: cs => do
      if isControl c then none
      let (text, rest) ← takeBasic? 0 cs
      return (c :: text, rest)

/-- Reads a string after its opening single quote, up to the closing one. -/
def takeLiteral? (cs : List Char) : Option (List Char × List Char) :=
  let text := cs.takeWhile (· != '\'')
  match cs.dropWhile (· != '\'') with
  | _ :: rest => if text.any isControl then none else some (text, rest)
  | [] => none

def takeString? : List Char → Option (List Char × List Char)
  | '"' :: cs => takeBasic? 0 cs
  | '\'' :: cs => takeLiteral? cs
  | _ => none

def takeKey? (cs : List Char) : Option (String × List Char) :=
  match takeString? cs with
  | some (text, rest) => some (String.ofList text, rest)
  | none =>
      let name := cs.takeWhile isBareKeyChar
      if name = [] then none else some (String.ofList name, cs.dropWhile isBareKeyChar)

/-- Removes underscores, each of which must stand between two digits. -/
def joinDigits? : List Char → Option (List Char)
  | c :: '_' :: d :: cs =>
      if c = '_' ∨ d = '_' then none else (joinDigits? (d :: cs)).map (c :: ·)
  | c :: cs => if c = '_' then none else (joinDigits? cs).map (c :: ·)
  | [] => some []

/-- Reads digits of a base, with underscores between them. -/
def readDigits? (base : Nat) (cs : List Char) : Option Nat :=
  if cs = [] then none else (joinDigits? cs).bind (readBase? base)

/-- Reads a decimal integer, which has no leading zero, or one in base 16, 8 or 2, which has
no sign. -/
def readInteger? (cs : List Char) : Option Int :=
  match cs with
  | '0' :: 'x' :: digits => (readDigits? 16 digits).map Int.ofNat
  | '0' :: 'o' :: digits => (readDigits? 8 digits).map Int.ofNat
  | '0' :: 'b' :: digits => (readDigits? 2 digits).map Int.ofNat
  | _ =>
      let (negative, digits) := Numeral.takeSign cs
      if digits.head? = some '0' ∧ digits ≠ ['0'] then none
      else (readDigits? 10 digits).map fun n => if negative then -(n : Int) else n

/-- Reads a word that is neither key nor string: a boolean, or an integer of 64 bits. -/
def readWord? (word : List Char) : Option Data :=
  match word with
  | ['t', 'r', 'u', 'e'] => some (.boolean true)
  | ['f', 'a', 'l', 's', 'e'] => some (.boolean false)
  | _ =>
      (readInteger? word).bind fun n =>
        if Int64.minValue.toInt ≤ n ∧ n ≤ Int64.maxValue.toInt then some (.integer n) else none

def isWordChar (c : Char) : Bool :=
  isBareKeyChar c || c == '+' || c == '.' || c == ':'

/-- Reads a value and nothing after it but a comment. -/
def readValue? (cs : List Char) : Option Data :=
  match takeString? cs with
  | some (text, rest) => if isLineEnd rest then some (.string (String.ofList text)) else none
  | none =>
      if isLineEnd (cs.dropWhile isWordChar) then readWord? (cs.takeWhile isWordChar) else none

/-- Reads a header after its opening brackets, of which there are `depth`. -/
def readHeader? (depth : Nat) (cs : List Char) : Option String := do
  let (name, rest) ← takeKey? (skipSpace cs)
  let closing := skipSpace rest
  if closing.take depth = List.replicate depth ']' ∧ isLineEnd (closing.drop depth) then some name
  else none

def readLine? (cs : List Char) : Option Line :=
  if isLineEnd cs then some .blank
  else
    match skipSpace cs with
    | '[' :: '[' :: rest => (readHeader? 2 rest).map .arrayHeader
    | '[' :: rest => (readHeader? 1 rest).map .tableHeader
    | start => do
        let (name, rest) ← takeKey? start
        match skipSpace rest with
        | '=' :: value => (readValue? (skipSpace value)).map (.entry name)
        | _ => none

/-- The lines of a document, each ended by a line feed that a carriage return may precede. -/
def splitLines : List Char → List (List Char)
  | [] => [[]]
  | '\r' :: '\n' :: cs => [] :: splitLines cs
  | '\n' :: cs => [] :: splitLines cs
  | c :: cs => (splitLines cs).modifyHead (c :: ·)

/-- Fields under a header, or before the first one. -/
structure Section where
  header : Option (String × Bool)
  fields : List (String × Data)

/-- Adds a line to the sections read so far, the latest one first. -/
def addLine? : List Section → Line → Option (List Section)
  | sections, .blank => some sections
  | sections, .tableHeader name => some (⟨some (name, false), []⟩ :: sections)
  | sections, .arrayHeader name => some (⟨some (name, true), []⟩ :: sections)
  | [], .entry .. => none
  | current :: sections, .entry name value =>
      if (field? current.fields name).isSome then none
      else some ({ current with fields := current.fields ++ [(name, value)] } :: sections)

/-- Adds a section to the fields of the document. A table must be new; a section of an array
joins the ones before it. -/
def addSection? (root : List (String × Data)) (part : Section) : Option (List (String × Data)) :=
  match part.header with
  | none => some (root ++ part.fields)
  | some (name, false) =>
      if (field? root name).isSome then none else some (root ++ [(name, .table part.fields)])
  | some (name, true) =>
      match field? root name with
      | none => some (root ++ [(name, .list [.table part.fields])])
      | some (.list items) =>
          some (root.map fun field =>
            if field.1 == name then (name, .list (items ++ [.table part.fields])) else field)
      | some _ => none

def dropMark : List Char → List Char
  | '\uFEFF' :: cs => cs
  | cs => cs

/-- Reads a document as a table. -/
def read? (text : String) : Option Data := do
  let lines ← (splitLines (dropMark text.toList)).mapM readLine?
  let sections ← lines.foldlM addLine? [⟨none, []⟩]
  let root ← sections.reverse.foldlM addSection? []
  return .table root

end Placeholders.Data.Toml
