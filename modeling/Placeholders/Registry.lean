import Placeholders.ValueType
import Std.Data.HashMap

set_option autoImplicit false

namespace Placeholders

inductive RegistrationError where
  | duplicateCastName (castName : String)
  | duplicateKind (kind : Kind)
  | unknownKind (kind : Kind) (name : String)
  | invalidNumberFormat (reason : String)
  deriving DecidableEq

def RegistrationError.message : RegistrationError → String
  | .duplicateCastName castName =>
      "a type with cast name '" ++ castName ++ "' is already registered"
  | .duplicateKind kind => "a type of kind " ++ kind.name ++ " is already registered"
  | .unknownKind kind name =>
      "cannot add placeholder '" ++ name ++ "': no type of kind " ++ kind.name ++ " is registered"
  | .invalidNumberFormat reason => "invalid number format: " ++ reason

/-- Refuses a format whose output cannot be read back. -/
def NumberFormat.validate (f : NumberFormat) : Except RegistrationError Unit :=
  match f.flaw? with
  | some flaw => .error (.invalidNumberFormat flaw.message)
  | none => .ok ()

/-- What a registration answers, together with the state that it leaves, also when it is
refused. -/
structure Registered (α σ : Type) where
  answer : Except RegistrationError α
  state : σ

/-- The state after a registration, for a caller that stops at a refusal. -/
def Registered.toExcept {α σ : Type} (r : Registered α σ) : Except RegistrationError σ :=
  r.answer.map fun _ => r.state

/-- Registered types, first one first, and the place among them of each kind and of each
cast name. -/
structure Registry where
  types : List ValueType
  kindPlaces : Std.HashMap Kind Nat
  castPlaces : Std.HashMap String Nat

namespace Registry

def empty : Registry := ⟨[], ∅, ∅⟩

/-- Puts a type after all others, whatever its kind and its cast name. -/
def push (r : Registry) (type : ValueType) : Registry where
  types := r.types ++ [type]
  kindPlaces := r.kindPlaces.insert type.kind r.types.length
  castPlaces := r.castPlaces.insert type.castName r.types.length

def builtin (format : NumberFormat) : Registry :=
  [ValueType.number format, .string, .boolean].foldl push empty

def size (r : Registry) : Nat :=
  r.types.length

def castNames (r : Registry) : List String :=
  r.types.map (·.castName)

def findCast? (r : Registry) (castName : String) : Option ValueType :=
  r.castPlaces[castName]?.bind fun i => r.types[i]?

/-- The place of a kind's type in the order of registration. -/
def position? (r : Registry) (kind : Kind) : Option Nat :=
  r.kindPlaces[kind]?

def findKind? (r : Registry) (kind : Kind) : Option ValueType :=
  (r.position? kind).bind fun i => r.types[i]?

/-- Adds a type after all others and answers its place. Its cast name must be new, then its
kind. -/
def register (r : Registry) (type : ValueType) : Registered Nat Registry :=
  if r.castPlaces.contains type.castName then
    ⟨.error (.duplicateCastName type.castName), r⟩
  else if r.kindPlaces.contains type.kind then ⟨.error (.duplicateKind type.kind), r⟩
  else ⟨.ok r.types.length, r.push type⟩

/-- Reads a literal with the first type that accepts it. -/
def readLiteral? (r : Registry) (text : String) : Option Value :=
  r.types.findSome? (·.readLiteral? text)

/-- Writes a value with the type of its kind, or plainly if there is none. -/
def write (r : Registry) (value : Value) : String :=
  match r.findKind? value.kind with
  | some type => type.write value
  | none => value.display

end Registry

end Placeholders
