import Placeholders.Condition
import Placeholders.Data

set_option autoImplicit false

namespace Placeholders

namespace NumberFormat

def fieldNames : List String :=
  ["decimal-separator", "grouping-separator", "max-fraction-digits"]

/-- Reads a format, each absent field as in the standard format. A format that is read may
still have flaws. -/
def ofData? (surplus : Surplus) (data : Data) : Option NumberFormat := do
  let fields ← data.record? surplus fieldNames
  return {
    decimalSeparator := ← Data.optional? fields "decimal-separator" Data.char?
      standard.decimalSeparator
    groupingSeparator := ← Data.optional? fields "grouping-separator" (Data.nullable? Data.char?)
      standard.groupingSeparator
    maxFractionDigits := ← Data.optional? fields "max-fraction-digits" Data.count?
      standard.maxFractionDigits }

def toData (f : NumberFormat) : Data :=
  .table [("decimal-separator", .string (String.singleton f.decimalSeparator)),
    ("grouping-separator", .ofOption (f.groupingSeparator.map String.singleton)),
    ("max-fraction-digits", .integer f.maxFractionDigits)]

end NumberFormat

structure EngineConfig where
  number : NumberFormat
  deriving DecidableEq

namespace EngineConfig

def ofData? (surplus : Surplus) (data : Data) : Option EngineConfig := do
  let fields ← data.record? surplus ["number"]
  return ⟨← Data.optional? fields "number" (NumberFormat.ofData? surplus) .standard⟩

def toData (c : EngineConfig) : Data :=
  .table [("number", c.number.toData)]

end EngineConfig

namespace ConditionSpec

def fieldNames : List String :=
  ["first", "second", "operation", "not", "gate"]

/-- Reads an entry; it is not negated and has no gate unless it says so. -/
def ofData? (surplus : Surplus) (data : Data) : Option ConditionSpec := do
  let fields ← data.record? surplus fieldNames
  return {
    first := ← Data.required? fields "first" Data.string?
    second := ← Data.required? fields "second" Data.string?
    operation := ← Data.required? fields "operation" Data.string?
    negated := ← Data.optional? fields "not" Data.boolean? false
    gate := ← Data.optional? fields "gate" (Data.nullable? Data.string?) none }

def listOfData? (surplus : Surplus) (data : Data) : Option (List ConditionSpec) :=
  data.list?.bind fun items => items.mapM (ofData? surplus)

def toData (spec : ConditionSpec) : Data :=
  .table [("first", .string spec.first), ("second", .string spec.second),
    ("operation", .string spec.operation), ("not", .boolean spec.negated),
    ("gate", .ofOption spec.gate)]

end ConditionSpec

/-- Reads a kind from the word for it, which may stand alone or name the one field, without a
value, of a table. -/
def Kind.ofData? : Data → Option Kind
  | .string name | .table [(name, .null)] => Kind.ofName? name
  | _ => none

def Kind.toData (kind : Kind) : Data :=
  .string kind.name

end Placeholders
