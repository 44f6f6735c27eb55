import Placeholders.Builder
import Placeholders.Registry

set_option autoImplicit false

namespace Placeholders

/-- Value types, and one table of builders for each of them, in the same order. -/
structure Engine (C : Type) where
  types : Registry
  tables : List (BuilderTable C)

/-- A change to an engine: a further value type, or a builder for a name under a kind. -/
inductive Registration (C : Type) where
  | type (type : ValueType)
  | builder (kind : Kind) (name : String) (builder : Builder C)

/-- A builder without arguments, from a function into the carrier of its kind. -/
def Registration.supplier {C : Type} (kind : Kind) (name : String) (f : C → kind.Carrier) :
    Registration C :=
  .builder kind name (.ofPlaceholder (.supply kind f))

namespace Engine

variable {C : Type}

def empty : Engine C := ⟨.empty, []⟩

def ofTypes (types : Registry) : Engine C :=
  ⟨types, types.types.map fun _ => .empty⟩

def builtin (format : NumberFormat) : Engine C :=
  ofTypes (.builtin format)

/-- An engine with the built-in types, if their number format reads back. -/
def ofFormat (format : NumberFormat) : Except RegistrationError (Engine C) := do
  format.validate
  return builtin format

/-- Adds a value type after all others, with an empty table. -/
def registerType (e : Engine C) (type : ValueType) : Registered Unit (Engine C) :=
  let registered := e.types.register type
  match registered.answer with
  | .ok _ => ⟨.ok (), ⟨registered.state, e.tables ++ [.empty]⟩⟩
  | .error error => ⟨.error error, { e with types := registered.state }⟩

/-- Adds a builder under a kind, in place of one with the same kind and name. -/
def registerBuilder (e : Engine C) (kind : Kind) (name : String) (builder : Builder C) :
    Registered Unit (Engine C) :=
  match e.types.position? kind with
  | some i => ⟨.ok (), { e with tables := e.tables.modify i (·.insert name builder) }⟩
  | none => ⟨.error (.unknownKind kind name), e⟩

def register (e : Engine C) : Registration C → Registered Unit (Engine C)
  | .type type => e.registerType type
  | .builder kind name builder => e.registerBuilder kind name builder

/-- The engine after a series of registrations, of which some may be refused. -/
def afterAll (e : Engine C) (history : List (Registration C)) : Engine C :=
  history.foldl (fun engine r => (engine.register r).state) e

def contains (e : Engine C) (kind : Kind) (name : String) : Bool :=
  match e.types.position? kind with
  | some i => e.tables[i]?.any (·.contains name)
  | none => false

/-- The first builder of a name in the order of the types, and the type that owns it. -/
def find? (e : Engine C) (name : String) : Option (ValueType × Builder C) :=
  (e.types.types.zip e.tables).findSome? fun (type, table) =>
    (table.get? name).map fun builder => (type, builder)

/-- Writes a value with the type of its kind. -/
def write (e : Engine C) (value : Value) : String :=
  e.types.write value

end Engine

end Placeholders
