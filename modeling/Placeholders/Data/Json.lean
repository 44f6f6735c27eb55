import Placeholders.Data

set_option autoImplicit false

namespace Placeholders.Data

/-- A character below U+0020 as a four-digit escape. -/
def escapeControl (c : Char) : List Char :=
  let digits := Nat.toDigits 16 c.toNat
  '\\' :: 'u' :: digits.leftpad 4 '0'

def escapeChar (c : Char) : List Char :=
  match c with
  | '"' => ['\\', '"']
  | '\\' => ['\\', '\\']
  | '\n' => ['\\', 'n']
  | '\r' => ['\\', 'r']
  | '\t' => ['\\', 't']
  | '\x08' => ['\\', 'b']
  | '\x0c' => ['\\', 'f']
  | c => if c.toNat < 0x20 then escapeControl c else [c]

def quote (s : String) : String :=
  "\"" ++ String.ofList (s.toList.flatMap escapeChar) ++ "\""

def lineBreak (level : Nat) : String :=
  "\n" ++ String.ofList (List.replicate (2 * level) ' ')

mutual

/-- The text of a tree whose first line is already indented. -/
def jsonText (level : Nat) : Data → String
  | null => "null"
  | boolean true => "true"
  | boolean false => "false"
  | integer n => toString n
  | real text => text
  | string s => quote s
  | list [] => "[]"
  | list (item :: items) =>
      "[" ++ lineBreak (level + 1) ++ jsonText (level + 1) item ++ itemsText (level + 1) items ++
        lineBreak level ++ "]"
  | table [] => "\x7b\x7d"
  | table ((name, data) :: fields) =>
      "\x7b" ++ lineBreak (level + 1) ++ quote name ++ ": " ++ jsonText (level + 1) data ++
        fieldsText (level + 1) fields ++ lineBreak level ++ "\x7d"

/-- The items after the first one. -/
def itemsText (level : Nat) : List Data → String
  | [] => ""
  | item :: items => "," ++ lineBreak level ++ jsonText level item ++ itemsText level items

def fieldsText (level : Nat) : List (String × Data) → String
  | [] => ""
  | (name, data) :: fields =>
      "," ++ lineBreak level ++ quote name ++ ": " ++ jsonText level data ++ fieldsText level fields

end

/-- The indented text of a tree. -/
def toJson (data : Data) : String :=
  jsonText 0 data

end Placeholders.Data
