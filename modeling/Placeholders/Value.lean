import Placeholders.Decimal.Shortest
import Placeholders.Text.Order

set_option autoImplicit false

namespace Placeholders

inductive Kind where
  | number
  | text
  | boolean
  deriving DecidableEq, Hashable

/-- The word for a kind in messages and configuration. -/
def Kind.name : Kind → String
  | .number => "number"
  | .text => "text"
  | .boolean => "boolean"

def Kind.ofName? : String → Option Kind
  | "number" => some .number
  | "text" => some .text
  | "boolean" => some .boolean
  | _ => none

inductive Value where
  | number (x : Binary64)
  | text (s : String)
  | boolean (b : Bool)
  deriving DecidableEq

namespace Value

def kind : Value → Kind
  | number _ => .number
  | text _ => .text
  | boolean _ => .boolean

def number? : Value → Option Binary64
  | number x => some x
  | _ => none

def text? : Value → Option String
  | text s => some s
  | _ => none

/-- The plain text of a value, whatever the format of numbers. -/
def display : Value → String
  | number x => String.ofList x.display
  | text s => s
  | boolean true => "true"
  | boolean false => "false"

/-- Equality as conditions see it: by number, text or truth; never across kinds. -/
def equal : Value → Value → Bool
  | number x, number y => x.equal y
  | text s, text t => s == t
  | boolean a, boolean b => a == b
  | _, _ => false

/-- The order of two values: by number, by UTF-8 bytes, false before true; none across
kinds or with a `nan`. -/
def order? : Value → Value → Option Ordering
  | number x, number y => x.compare? y
  | text s, text t => some (Text.order s t)
  | boolean a, boolean b => some (compare a b)
  | _, _ => none

end Value

end Placeholders
