import Mathlib.Data.String.Basic
import Placeholders.Proofs.Rendering

set_option autoImplicit false

namespace Placeholders

/-- Whether an entry compiles by itself: its gate is known and its sides can be compared. -/
def ConditionSpec.Compiles {C : Type} (e : Engine C) (spec : ConditionSpec) : Prop :=
  (∃ gate, spec.parseGate = .ok gate) ∧ ∃ condition, spec.compile e = .ok condition

structure Sheet.Compiles (sheet : Sheet) (engine : Engine Subject) : Prop where
  texts : ∀ name pattern, sheet.texts.get? name = some pattern →
    ∃ template, Template.compile engine pattern = .ok template
  conditions : ∃ condition, Condition.ofSpecs engine sheet.conditions = .ok condition

namespace Command

end Command

end Placeholders
