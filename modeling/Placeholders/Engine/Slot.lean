import Placeholders.Engine.Basic

set_option autoImplicit false

namespace Placeholders

inductive InstallError where
  | alreadyInstalled
  | notInstalled
  deriving DecidableEq

def InstallError.message : InstallError → String
  | .alreadyInstalled => "a placeholder engine is already installed"
  | .notInstalled => "no placeholder engine has been installed"

structure Slot (C : Type) where
  installed? : Option (Engine C)

namespace Slot

variable {C : Type}

def empty : Slot C := ⟨none⟩

def isInstalled (s : Slot C) : Bool :=
  s.installed?.isSome

def engine (s : Slot C) : Except InstallError (Engine C) :=
  match s.installed? with
  | some engine => .ok engine
  | none => .error .notInstalled

/-- Fills an empty slot; a full one keeps its engine. -/
def install (s : Slot C) (engine : Engine C) : Except InstallError (Slot C) :=
  if s.isInstalled then .error .alreadyInstalled else .ok ⟨some engine⟩

end Slot

end Placeholders
