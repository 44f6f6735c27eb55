import Placeholders.Command.Report

set_option autoImplicit false

namespace Placeholders.Command

/-- How tables and reports are laid out. -/
structure Printer where
  table : List String → List (List String) → String
  report : Diagnostic → String
  refused : SheetError → String
  unreadable : String → String

def Printer.show (printer : Printer) : Output → String
  | .text s => s
  | .table header rows => printer.table header rows ++ "\n"
  | .report diagnostic => printer.report diagnostic
  | .refused error => printer.refused error
  | .unreadable path => printer.unreadable path

/-- A run as text: the exit code and what goes to the two output streams. -/
structure Outcome where
  exitCode : UInt8
  stdout : String
  stderr : String
  deriving DecidableEq

def Outcome.usage : Outcome :=
  ⟨2, "", "Usage: plex [--color auto|always|never] [-v] eval|check|render ARGUMENTS\n"⟩

/-- The text of a result. The log has been written when the first report is. -/
def Result.print (result : Result) (printer : Printer) (log : String) : Outcome :=
  ⟨result.exitCode, String.join (result.printed.map printer.show),
    log ++ String.join (result.reported.map printer.show)⟩

/-- `s` filled up with spaces to a number of characters. -/
def padRight (width : Nat) (s : String) : String :=
  s ++ String.ofList (List.replicate (width - s.length) ' ')

def columnWidths (rows : List (List String)) : List Nat :=
  rows.foldr (fun row widths => List.zipWithAll (fun cell width =>
    max ((cell.map String.length).getD 0) (width.getD 0)) row widths) []

/-- A line of cells, each with a space on both sides, and a space between columns. -/
def rowLine (widths : List Nat) (row : List String) : String :=
  "│" ++ " ".intercalate
    (List.zipWith (fun width cell => " " ++ padRight width cell ++ " ") widths row) ++ "│"

def ruleLine (left middle right : String) (widths : List Nat) : String :=
  let length := widths.foldl (fun length width => length + width + 2) (widths.length - 1)
  left ++ String.join (List.replicate length middle) ++ right

def boxTable (header : List String) (rows : List (List String)) : String :=
  let widths := columnWidths (header :: rows)
  "\n".intercalate
    ([ruleLine "┌" "─" "┐" widths, rowLine widths header, ruleLine "╞" "═" "╡" widths] ++
      rows.map (rowLine widths) ++ [ruleLine "└" "─" "┘" widths])

/-- Lines without colours, and tables whose cells are lines of characters of one width. -/
def Printer.plain : Printer where
  table := boxTable
  report d :=
    "Error: " ++ d.message ++ "\n  --> " ++ d.origin ++ ", bytes " ++ toString d.offset ++ ".." ++
      toString (d.offset + d.length) ++ "\n" ++
      match d.help? with
      | some help => "  help: " ++ help ++ "\n"
      | none => ""
  refused error := "Error: " ++ error.message ++ "\n"
  unreadable path := "Error: cannot load sheet " ++ path ++ "\n"

end Placeholders.Command
