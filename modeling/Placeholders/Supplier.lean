import Placeholders.Builder

set_option autoImplicit false

namespace Placeholders

/-- A number for each context, or none. -/
structure Supplier (C : Type) where
  value? : C → Option Binary64

namespace Supplier

variable {C : Type}

def zero : Supplier C := ⟨fun _ => some (.zero false)⟩

def invalid : Supplier C := ⟨fun _ => none⟩

/-- The number of a number placeholder, and none where it has no value. -/
def ofPlaceholder (name : String) (placeholder : Placeholder C) :
    Except ResolveError (Supplier C) :=
  if placeholder.kind = .number then
    .ok ⟨fun context => (placeholder.evaluate context).toOption.bind Value.number?⟩
  else .error (.kindMismatch name .number placeholder.kind)

end Supplier

end Placeholders
