import Placeholders.Text.Blank

set_option autoImplicit false

namespace Placeholders.Command

inductive Switch where
  | color
  | verbose
  | version
  | sheet
  | set
  | json
  deriving DecidableEq

namespace Switch

def ofLongName? : String → Option Switch
  | "color" => some color
  | "verbose" => some verbose
  | "version" => some version
  | "sheet" => some sheet
  | "set" => some set
  | "json" => some json
  | _ => none

def ofLetter? : Char → Option Switch
  | 'v' => some verbose
  | 'V' => some version
  | 's' => some set
  | _ => none

def takesValue : Switch → Bool
  | color | sheet | set => true
  | verbose | version | json => false

end Switch

inductive Item where
  | switch (name : Switch)
  | value (name : Switch) (text : String)
  | positional (text : String)

/-- Whether an argument cannot be the value of an option before it. -/
def looksLikeSwitch (argument : String) : Bool :=
  match argument.toList with
  | '-' :: _ :: _ => true
  | _ => false

/-- Reads an option whose value is either attached to it or the next argument. -/
def takeValue? (name : Switch) (attached : Option String) (rest : List String) :
    Option (Item × List String) :=
  match attached, rest with
  | some text, _ => some (.value name text, rest)
  | none, text :: rest => if looksLikeSwitch text then none else some (.value name text, rest)
  | none, [] => none

/-- Reads `--name` or `--name=value` after its dashes. -/
def takeLong? (accepted : List Switch) (cs : List Char) (rest : List String) :
    Option (List Item × List String) := do
  let name ← Switch.ofLongName? (String.ofList (cs.takeWhile (· != '=')))
  let attached :=
    match cs.dropWhile (· != '=') with
    | _ :: value => some (String.ofList value)
    | [] => none
  if !accepted.contains name then none
  else if name.takesValue then (takeValue? name attached rest).map fun (item, rest) => ([item], rest)
  else if attached.isSome then none
  else some ([.switch name], rest)

/-- Reads the letters after one dash. A letter that takes a value takes the remaining ones, or
the next argument if there are none; a request for the version ends the reading. -/
def takeLetters? (accepted : List Switch) : List Char → List String → Option (List Item × List String)
  | [], rest => some ([], rest)
  | letter :: cs, rest => do
      let name ← Switch.ofLetter? letter
      if !accepted.contains name then none
      else if name.takesValue then
        let attached :=
          match cs with
          | [] => none
          | '=' :: value => some (String.ofList value)
          | value => some (String.ofList value)
        (takeValue? name attached rest).map fun (item, rest) => ([item], rest)
      else if name = .version then some ([.switch name], rest)
      else
        let (items, rest) ← takeLetters? accepted cs rest
        some (.switch name :: items, rest)

/-- Reads one argument that is not `--`, and its value if it takes one. -/
def takeArgument? (accepted : List Switch) (argument : String) (rest : List String) :
    Option (List Item × List String) :=
  match argument.toList with
  | '-' :: '-' :: cs => takeLong? accepted cs rest
  | '-' :: c :: cs => takeLetters? accepted (c :: cs) rest
  | _ => some ([.positional argument], rest)

/-- What the arguments of a command say so far. -/
structure Draft where
  color : Bool
  verbose : Bool
  json : Bool
  sheet : Option String
  set : List (String × String)
  positionals : List String

def Draft.empty : Draft := ⟨false, false, false, none, [], []⟩

/-- Reads `name=literal`; white space around the name does not count. -/
def readAssignment? (text : String) : Option (String × String) :=
  match text.toList.dropWhile (· != '=') with
  | _ :: literal =>
      some (String.ofList (Text.trim (text.toList.takeWhile (· != '='))), String.ofList literal)
  | [] => none

/-- Adds one item. Only assignments may be repeated. -/
def Draft.add? (d : Draft) : Item → Option Draft
  | .switch .verbose => if d.verbose then none else some { d with verbose := true }
  | .switch .json => if d.json then none else some { d with json := true }
  | .value .color text =>
      if d.color ∨ text ∉ ["auto", "always", "never"] then none else some { d with color := true }
  | .value .sheet text =>
      if d.sheet.isSome ∨ text = "" then none else some { d with sheet := some text }
  | .value .set text => (readAssignment? text).map fun pair => { d with set := d.set ++ [pair] }
  | .positional text => some { d with positionals := d.positionals ++ [text] }
  | _ => none

/-- Reads all arguments after the name of a command. At most `fuel` arguments are read, which
is enough if it is their number. -/
def readArguments? (accepted : List Switch) : Nat → Draft → List String → Option Draft
  | _, draft, [] => some draft
  | 0, _, _ :: _ => none
  | fuel + 1, draft, argument :: rest =>
      if argument = "--" then rest.foldlM (fun draft text => draft.add? (.positional text)) draft
      else do
        let (items, rest) ← takeArgument? accepted argument rest
        readArguments? accepted fuel (← items.foldlM Draft.add? draft) rest

end Command

inductive Command where
  | version
  | eval (expression : String) (sheet : Option String) (set : List (String × String)) (json : Bool)
  | check (sheet : String) (json : Bool)
  | render (sheet : String) (set : List (String × String)) (json : Bool)

/-- A command and whether it is to report what it does. -/
structure Invocation where
  command : Command
  verbose : Bool

namespace Command

def globalSwitches : List Switch := [.color, .verbose]

def ofName? (name : String) (verbose : Bool) (arguments : List String) : Option Invocation :=
  match name with
  | "eval" => do
      let d ← readArguments? (globalSwitches ++ [.sheet, .set, .json]) arguments.length .empty arguments
      match d.positionals with
      | [expression] => some ⟨.eval expression d.sheet d.set d.json, verbose || d.verbose⟩
      | _ => none
  | "check" => do
      let d ← readArguments? (globalSwitches ++ [.json]) arguments.length .empty arguments
      match d.positionals with
      | [sheet] => if sheet = "" then none else some ⟨.check sheet d.json, verbose || d.verbose⟩
      | _ => none
  | "render" => do
      let d ← readArguments? (globalSwitches ++ [.set, .json]) arguments.length .empty arguments
      match d.positionals with
      | [sheet] => if sheet = "" then none else some ⟨.render sheet d.set d.json, verbose || d.verbose⟩
      | _ => none
  | _ => none

/-- Adds the items of one argument before the command; a request for the version is final. -/
def addGlobal? : List Item → Draft → Option (Draft ⊕ Invocation)
  | [], draft => some (.inl draft)
  | .switch .version :: _, draft => some (.inr ⟨.version, draft.verbose⟩)
  | item :: items, draft => (draft.add? item).bind (addGlobal? items)

/-- Reads the options before the command, then the command. -/
def readGlobal? : Nat → Draft → List String → Option Invocation
  | fuel + 1, draft, argument :: rest =>
      if argument = "--" then none
      else do
        match ← takeArgument? (.version :: globalSwitches) argument rest with
        | ([.positional name], rest) => ofName? name draft.verbose rest
        | (items, rest) =>
            match ← addGlobal? items draft with
            | .inl draft => readGlobal? fuel draft rest
            | .inr invocation => some invocation
  | _, _, _ => none

end Command

/-- Reads a whole argument list; none means wrong usage. -/
def Invocation.ofArguments? (arguments : List String) : Option Invocation :=
  Command.readGlobal? arguments.length .empty arguments

end Placeholders
