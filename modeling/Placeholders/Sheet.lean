import Placeholders.Binary64.Arithmetic
import Placeholders.Config
import Placeholders.Data.Toml
import Placeholders.Engine.Resolve

set_option autoImplicit false

namespace Placeholders

/-- A sheet. The literals of its variables and its texts are in the order of their names,
which is the order of the names' UTF-8 bytes. -/
structure Sheet where
  number : NumberFormat
  literals : Std.TreeMap String String
  texts : Std.TreeMap String String
  conditions : List ConditionSpec

/-- The values of the variables. -/
abbrev Subject := Std.TreeMap String Value

inductive SheetError where
  | invalidVariable (name literal : String)
  | registration (error : RegistrationError)
  deriving DecidableEq

namespace SheetError

def message : SheetError → String
  | invalidVariable name literal =>
      "variable '" ++ name ++ "' has no valid literal value: '" ++ literal ++ "'"
  | registration error => error.message

def code : SheetError → String
  | invalidVariable .. => "plex::sheet::variable"
  | registration _ => "plex::sheet::registration"

def help? : SheetError → Option String
  | invalidVariable .. => some "quote text values, e.g. \"'Zombie'\""
  | registration _ => none

end SheetError

namespace Sheet

def empty : Sheet := ⟨.standard, ∅, ∅, []⟩

def stringsOfData? (data : Data) : Option (Std.TreeMap String String) := do
  let fields ← data.table?
  fields.foldlM (fun strings (name, value) => value.string?.map (strings.insert name ·)) ∅

def sections : List String :=
  ["number", "variables", "texts", "conditions"]

/-- Reads a sheet. Every section may be absent; there is no other section. -/
def ofData? (surplus : Surplus) (data : Data) : Option Sheet := do
  let fields ← data.record? surplus sections
  if fields.all fun field => sections.contains field.1 then
    return {
      number := ← Data.optional? fields "number" (NumberFormat.ofData? surplus) .standard
      literals := ← Data.optional? fields "variables" stringsOfData? ∅
      texts := ← Data.optional? fields "texts" stringsOfData? ∅
      conditions := ← Data.optional? fields "conditions" (ConditionSpec.listOfData? surplus) [] }
  else none

def parse? (text : String) : Option Sheet :=
  (Data.Toml.read? text).bind (ofData? .ignored)

/-- The placeholder of a variable: its value in the subject. -/
def stored (name : String) (kind : Kind) : Placeholder Subject where
  kind := kind
  evaluate subject :=
    match subject.get? name with
    | some value => .ok value
    | none => .error (.unavailable name)

/-- Reads a digit count: an optional sign and digits, within 32 bits. -/
def readDigitCount? (text : String) : Option Int :=
  let (negative, digits) := Numeral.takeSign text.toList
  (Numeral.readNat? digits).bind fun n =>
    let count : Int := if negative then -(n : Int) else n
    if Int32.minValue.toInt ≤ count ∧ count ≤ Int32.maxValue.toInt then some count else none

def ten : Binary64 :=
  .nearest false (10 * unitsPerOne) 1

/-- `x` rounded to a number of decimal digits, halves away from zero, by way of a scale that
is a power of ten. -/
def roundTo (digits : Int) (x : Binary64) : Binary64 :=
  let scale := ten.power digits
  ((x.mul scale).round).div scale

/-- A number variable rounded to a digit count; any other name has no value. -/
def rounded (target : String) (digits : Int) : Placeholder Subject where
  kind := .number
  evaluate subject :=
    match (subject.get? target).bind Value.number? with
    | some x => .ok (.number (roundTo digits x))
    | none => .error (.unavailable target)

/-- The builder behind `round:variable[,digits]`, with no digits unless they are given. -/
def roundBuilder : Builder Subject where
  required := 1
  build name arguments :=
    match arguments with
    | [] => .error (.insufficientArguments name 0 1)
    | [target] => .ok (rounded target 0)
    | target :: digits :: _ =>
        match readDigitCount? digits with
        | some count => .ok (rounded target count)
        | none => .error (.invalidArgument name digits "expected a digit count")

/-- The variables with overrides in order, each in place of an earlier value of its name. -/
def merged (s : Sheet) (overrides : List (String × String)) : Std.TreeMap String String :=
  overrides.foldl (fun literals (name, literal) => literals.insert name literal) s.literals

/-- Declares one variable. Its kind is that of its literal. -/
def declare (built : Engine Subject × Subject) (entry : String × String) :
    Except SheetError (Engine Subject × Subject) := do
  let (engine, subject) := built
  let (name, literal) := entry
  match engine.types.readLiteral? literal with
  | none => throw (.invalidVariable name literal)
  | some value =>
      let engine ← (engine.registerBuilder value.kind name
        (.ofPlaceholder (stored name value.kind))).toExcept.mapError .registration
      return (engine, subject.insert name value)

/-- Builds the engine and the subject of a sheet with overrides. The number format is
checked first, then each variable in the order of the names. -/
def build (s : Sheet) (overrides : List (String × String)) :
    Except SheetError (Engine Subject × Subject) := do
  let engine ← (Engine.ofFormat s.number).mapError .registration
  let (engine, subject) ← (s.merged overrides).toList.foldlM declare (engine, ∅)
  let engine ← (engine.registerBuilder .number "round" roundBuilder).toExcept.mapError .registration
  return (engine, subject)

end Sheet

end Placeholders
