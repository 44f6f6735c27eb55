import Placeholders.ValueType

set_option autoImplicit false

namespace Placeholders

inductive EvalError where
  | castFailed (text : String) (target : Kind)
  | unavailable (name : String)
  deriving DecidableEq

def EvalError.message : EvalError → String
  | .castFailed text target => "cannot cast '" ++ text ++ "' to " ++ target.name
  | .unavailable name => "value for '" ++ name ++ "' is unavailable"

/-- A resolved placeholder. Its values are meant to be of the declared kind, which
nothing enforces. -/
structure Placeholder (C : Type) where
  kind : Kind
  evaluate : C → Except EvalError Value

namespace Placeholder

variable {C : Type}

def constant (value : Value) : Placeholder C :=
  ⟨value.kind, fun _ => .ok value⟩

/-- Writes the value of `base` as `source` does and reads that text as `target` does. -/
def cast (base : Placeholder C) (source target : ValueType) : Placeholder C where
  kind := target.kind
  evaluate context := do
    let value ← base.evaluate context
    let text := source.write value
    match target.read? text with
    | some result => .ok result
    | none => .error (.castFailed text target.kind)

end Placeholder

def Kind.Carrier : Kind → Type
  | .number => Binary64
  | .text => String
  | .boolean => Bool

def Value.ofCarrier : (kind : Kind) → kind.Carrier → Value
  | .number, x => .number x
  | .text, s => .text s
  | .boolean, b => .boolean b

/-- A placeholder that never fails, from a function into the carrier of its kind. -/
def Placeholder.supply {C : Type} (kind : Kind) (f : C → kind.Carrier) : Placeholder C :=
  ⟨kind, fun context => .ok (.ofCarrier kind (f context))⟩

end Placeholders
