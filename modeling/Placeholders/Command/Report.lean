import Placeholders.Data.Json
import Placeholders.Diagnostic
import Placeholders.Engine.Template
import Placeholders.Sheet

set_option autoImplicit false

namespace Placeholders.Command

/-- What came of one entry of a sheet. -/
structure CheckRow where
  entry : String
  source : String
  diagnostic? : Option Diagnostic
  deriving DecidableEq

namespace CheckRow

/-- The row as a record; an entry without an error has no field for one. -/
def toData (row : CheckRow) : Data :=
  .table ([("entry", .string row.entry), ("source", .string row.source)] ++
    match row.diagnostic? with
    | some diagnostic => [("error", .string diagnostic.message)]
    | none => [])

def cells (row : CheckRow) : List String :=
  [row.entry, row.source, (row.diagnostic?.map (·.message)).getD "ok"]

end CheckRow

def checkText (engine : Engine Subject) (name pattern : String) : CheckRow :=
  let entry := "texts." ++ name
  ⟨entry, pattern,
    match Template.compile engine pattern with
    | .ok _ => none
    | .error error => some (.ofPatternError entry pattern error)⟩

def conditionText (spec : ConditionSpec) : String :=
  (if spec.negated then "not " else "") ++ spec.first ++ " " ++ spec.operation ++ " " ++ spec.second

/-- Compiles a condition by itself, its gate before its comparison. -/
def checkCondition (engine : Engine Subject) (index : Nat) (spec : ConditionSpec) : CheckRow :=
  let entry := "conditions[" ++ toString index ++ "]"
  ⟨entry, conditionText spec,
    match spec.parseGate.bind fun _ => spec.compile engine with
    | .ok _ => none
    | .error error => some (.ofConditionError entry error)⟩

/-- One row for each text in the order of the names, then one for each condition. -/
def checkSheet (sheet : Sheet) (engine : Engine Subject) : List CheckRow :=
  (sheet.texts.toList.map fun (name, pattern) => checkText engine name pattern) ++
    sheet.conditions.mapIdx (checkCondition engine)

def green (s : String) : String := "\x1b[32m" ++ s ++ "\x1b[39m"

def red (s : String) : String := "\x1b[31m" ++ s ++ "\x1b[39m"

def bold (s : String) : String := "\x1b[1m" ++ s ++ "\x1b[0m"

/-- What a run prints or reports. The look of tables and of reports is left to a printer. -/
inductive Output where
  | text (s : String)
  | table (header : List String) (rows : List (List String))
  | report (diagnostic : Diagnostic)
  | refused (error : SheetError)
  | unreadable (path : String)
  deriving DecidableEq

/-- The result of a run: its exit code, what it prints, and what it reports to the error stream. The
log of the run, which is written to that stream too, is not part of the result. -/
structure Result where
  exitCode : UInt8
  printed : List Output
  reported : List Output
  deriving DecidableEq

namespace Result

def ok (printed : List Output) : Result := ⟨0, printed, []⟩

def dataError (reported : Output) : Result := ⟨65, [], [reported]⟩

def softwareError (reported : Output) : Result := ⟨70, [], [reported]⟩

def ofExcept : Except Result Result → Result
  | .ok result | .error result => result

end Result

end Placeholders.Command
