import Placeholders.NumberFormat
import Placeholders.Value

set_option autoImplicit false

namespace Placeholders

/-- A value type. `read?` takes the text that `write` produces and serves casts;
`readLiteral?` takes a literal as configuration writes it. -/
structure ValueType where
  kind : Kind
  castName : String
  read? : String → Option Value
  readLiteral? : String → Option Value
  write : Value → String

namespace ValueType

/-- A type whose literals are what its casts read. -/
def ofReader (kind : Kind) (castName : String) (read? : String → Option Value)
    (write : Value → String) : ValueType :=
  ⟨kind, castName, read?, read?, write⟩

/-- Numbers: written and read in `format`, with literals in plain decimal notation. -/
def number (format : NumberFormat) : ValueType where
  kind := .number
  castName := "number"
  read? text := (format.read? text.toList).map .number
  readLiteral? text := (Binary64.read? (Text.trim text.toList)).map .number
  write
    | .number x => String.ofList (format.write x)
    | value => value.display

/-- The text between two single quotes, which may hold further quotes. -/
def unquote? : List Char → Option (List Char)
  | '\'' :: cs => if cs.getLast? = some '\'' then some cs.dropLast else none
  | _ => none

/-- Texts: any text reads as itself, while a literal stands in single quotes. -/
def string : ValueType where
  kind := .text
  castName := "string"
  read? text := some (.text text)
  readLiteral? text := (unquote? text.toList).map fun cs => .text (String.ofList cs)
  write := Value.display

def readBoolean? : String → Option Value
  | "true" => some (.boolean true)
  | "false" => some (.boolean false)
  | _ => none

def boolean : ValueType :=
  ofReader .boolean "boolean" readBoolean? Value.display

end ValueType

end Placeholders
