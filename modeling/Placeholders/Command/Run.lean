import Placeholders.Command.Arguments
import Placeholders.Command.Print

set_option autoImplicit false

namespace Placeholders.Command

def loadSheet (load? : String → Option Sheet) (path : String) : Except Result Sheet :=
  match load? path with
  | some sheet => .ok sheet
  | none => .error (.softwareError (.unreadable path))

def valueRecord (expression : String) (kind : Kind) (text : String) : Data :=
  .table [("expression", .string expression), ("kind", kind.toData), ("value", .string text)]

def failureRecord (expression : String) (error : EvalError) : Data :=
  .table [("error", .string error.message), ("expression", .string expression)]

def evalResult (engine : Engine Subject) (subject : Subject) (expression : String) (json : Bool) :
    Result :=
  match engine.resolve expression with
  | .error error => .dataError (.report (.ofResolveError "<expression>" expression error))
  | .ok placeholder =>
      match placeholder.evaluate subject with
      | .ok value =>
          let text := engine.write value
          .ok [.text ((if json then (valueRecord expression value.kind text).toJson else text) ++
            "\n")]
      | .error error =>
          .dataError (.text ((if json then (failureRecord expression error).toJson
            else "Evaluation error: " ++ error.message) ++ "\n"))

def checkSummary (rows : List CheckRow) : String :=
  let failures := rows.countP (·.diagnostic?.isSome)
  if failures = 0 then green "✓" ++ " " ++ toString rows.length ++ " entries ok"
  else red "✗" ++ " " ++ toString failures ++ " of " ++ toString rows.length ++ " entries failed"

/-- Prints the rows of a check; it succeeds if none has an error. -/
def checkResult (rows : List CheckRow) (json verbose : Bool) : Result where
  exitCode := if rows.any (·.diagnostic?.isSome) then 65 else 0
  printed :=
    if json then [.text ((Data.list (rows.map CheckRow.toData)).toJson ++ "\n")]
    else [.table ["Entry", "Source", "Status"] (rows.map CheckRow.cells),
      .text (checkSummary rows ++ "\n")]
  reported := if verbose then rows.filterMap (·.diagnostic?.map .report) else []

def renderText (engine : Engine Subject) (subject : Subject) (entry : String × String) :
    Except Result (String × String) :=
  let (name, pattern) := entry
  match Template.compile engine pattern with
  | .error error =>
      .error (.dataError (.report (.ofPatternError ("texts." ++ name) pattern error)))
  | .ok template =>
      match template.render subject with
      | .ok text => .ok (name, text)
      | .error error =>
          .error (.dataError (.text
            ("Evaluation error in texts." ++ name ++ ": " ++ error.message ++ "\n")))

/-- Whether the conditions of a sheet hold; none if it has none. -/
def renderCondition (engine : Engine Subject) (subject : Subject) (specs : List ConditionSpec) :
    Except Result (Option Bool) :=
  if specs = [] then .ok none
  else
    match Condition.ofSpecs engine specs with
    | .ok condition => .ok (some (condition.holds subject))
    | .error error => .error (.dataError (.report (.ofConditionError "conditions" error)))

def renderRecord (texts : List (String × String)) (condition : Option Bool) : Data :=
  .table ([("texts", .list (texts.map fun (name, text) =>
    .table [("name", .string name), ("text", .string text)]))] ++
    match condition with
    | some holds => [("condition", .boolean holds)]
    | none => [])

def renderLines (texts : List (String × String)) (condition : Option Bool) : String :=
  String.join (texts.map fun (name, text) => bold name ++ ": " ++ text ++ "\n") ++
    match condition with
    | some holds => bold "conditions:" ++ " " ++ (if holds then green "pass" else red "fail") ++ "\n"
    | none => ""

/-- Renders the texts in the order of their names, then tests the conditions. -/
def renderResult (sheet : Sheet) (engine : Engine Subject) (subject : Subject) (json : Bool) :
    Except Result Result := do
  let texts ← sheet.texts.toList.mapM (renderText engine subject)
  let condition ← renderCondition engine subject sheet.conditions
  return .ok [.text (if json then (renderRecord texts condition).toJson ++ "\n"
    else renderLines texts condition)]

/-- Builds a sheet; for `eval` and `render` a sheet that cannot be built is unusable. -/
def buildSheet (sheet : Sheet) (overrides : List (String × String)) :
    Except Result (Engine Subject × Subject) :=
  (sheet.build overrides).mapError fun error => .softwareError (.refused error)

/-- The stages of a command over the sheets that `load?` finds. -/
def stages (load? : String → Option Sheet) (verbose : Bool) : Command → Except Result Result
  | .version => return .ok [.text "plex 0.1.0\n"]
  | .eval expression path overrides json => do
      let sheet ← path.elim (.ok .empty) (loadSheet load?)
      let (engine, subject) ← buildSheet sheet overrides
      return evalResult engine subject expression json
  | .check path json => do
      let sheet ← loadSheet load? path
      match sheet.build [] with
      | .error error => throw (.dataError (.refused error))
      | .ok (engine, _) => return checkResult (checkSheet sheet engine) json verbose
  | .render path overrides json => do
      let sheet ← loadSheet load? path
      let (engine, subject) ← buildSheet sheet overrides
      renderResult sheet engine subject json

/-- The result of a command over the sheets that `load?` finds. -/
def perform (load? : String → Option Sheet) (invocation : Invocation) : Result :=
  .ofExcept (stages load? invocation.verbose invocation.command)

/-- Runs a command and prints its result. The log is one line, if one is asked for. -/
def run (load? : String → Option Sheet) (invocation : Invocation) : Outcome :=
  (perform load? invocation).print .plain (if invocation.verbose then "running plex 0.1.0\n" else "")

def sheetPath? : Command → Option String
  | .version => none
  | .eval _ path _ _ => path
  | .check path _ => some path
  | .render path _ _ => some path

end Placeholders.Command
