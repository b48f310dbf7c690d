import GraphWire.Cli

/-!
# `GraphWire.Main` — the program `ppf`

Reads the file that the command asks for, and prints what the command has to say. There is no network:
`dial` is the failure `Network is unreachable (os error 101)` for every address, so the command `run` never
connects, and with a complete configuration it ends there.
-/

open GraphWire

/-- The text of a file, or the reason why it cannot be read. -/
def readText (path : String) : IO (Except String String) := do
  try
    return Cli.fileText (some (← IO.FS.readBinFile path))
  catch
    | .noFileOrDirectory .. => return Cli.fileText none
    | e => return .error (toString e)

def main (args : List String) : IO UInt32 := do
  let outcome ← match Cli.Command.ofArgs? args with
    | none => pure Cli.usage
    | some command =>
      let file ← readText command.path
      let dial := fun _ => .error "Network is unreachable (os error 101)"
      pure (command.outcome ⟨file, dial⟩)
  IO.print outcome.stdout
  IO.eprint outcome.stderr
  return outcome.code.toUInt32
