import Placeholders.Command.Run

set_option autoImplicit false

namespace Placeholders.Command

/-- The sheet in a file; none if the file cannot be read or holds no sheet. -/
def readSheet (path : String) : IO (Option Sheet) := do
  try
    let bytes ← IO.FS.readBinFile path
    return (String.fromUTF8? bytes).bind Sheet.parse?
  catch _ => return none

end Placeholders.Command

def main (arguments : List String) : IO UInt32 := do
  let outcome ← match Placeholders.Invocation.ofArguments? arguments with
    | none => pure Placeholders.Command.Outcome.usage
    | some invocation =>
        let sheet? ← match invocation.command.sheetPath? with
          | some path => Placeholders.Command.readSheet path
          | none => pure none
        pure (Placeholders.Command.run (fun _ => sheet?) invocation)
  IO.print outcome.stdout
  IO.eprint outcome.stderr
  return outcome.exitCode.toUInt32
