set_option autoImplicit false

namespace Placeholders

/-- A data tree. Tables keep the order of their fields. -/
inductive Data where
  | null
  | boolean (b : Bool)
  | integer (n : Int)
  /-- A number that is not written as an integer. -/
  | real (text : String)
  | string (s : String)
  | list (items : List Data)
  | table (fields : List (String × Data))
  deriving Inhabited

/-- What becomes of the items of a list beyond the last field of the record it is read as. -/
inductive Surplus where
  | refused
  | ignored
  deriving DecidableEq

namespace Data

def field? (fields : List (String × Data)) (name : String) : Option Data :=
  fields.lookup name

def string? : Data → Option String
  | string s => some s
  | _ => none

def boolean? : Data → Option Bool
  | boolean b => some b
  | _ => none

def char? : Data → Option Char
  | string s =>
      match s.toList with
      | [c] => some c
      | _ => none
  | _ => none

/-- An integer that fits 64 bits without a sign. -/
def count? : Data → Option Nat
  | integer (.ofNat n) => if n < UInt64.size then some n else none
  | _ => none

def list? : Data → Option (List Data)
  | list items => some items
  | _ => none

def table? : Data → Option (List (String × Data))
  | table fields => some fields
  | _ => none

/-- The fields of a record. A table has them by name. A list has them by place, in the order
of `names`, and may lack the last ones. -/
def record? (surplus : Surplus) (names : List String) : Data → Option (List (String × Data))
  | table fields => some fields
  | list items =>
      if surplus = .refused ∧ names.length < items.length then none else some (names.zip items)
  | _ => none

/-- Reads a field that may be absent, in which case it has the value `absent`. A field that
is there must be readable. -/
def optional? {α : Type} (fields : List (String × Data)) (name : String) (read? : Data → Option α)
    (absent : α) : Option α :=
  match field? fields name with
  | some data => read? data
  | none => some absent

def required? {α : Type} (fields : List (String × Data)) (name : String)
    (read? : Data → Option α) : Option α :=
  (field? fields name).bind read?

/-- Reads `null` as none and anything else with `read?`. -/
def nullable? {α : Type} (read? : Data → Option α) : Data → Option (Option α)
  | null => some none
  | data => (read? data).map some

def ofOption : Option String → Data
  | some s => string s
  | none => null

end Data

end Placeholders
