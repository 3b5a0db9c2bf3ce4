import ItemLogic.CommandLine.Run

/-!
# The command line

Reads the files that a command names, runs it and prints what it leaves.
-/

open ItemLogic

/-- The text of a file, or why it is not to be had. -/
def ItemLogic.CommandLine.readText (path : String) : IO (Except FileFault String) := do
  try
    let bytes ← IO.FS.readBinFile path
    match String.fromUTF8? bytes with
    | some text => return .ok text
    | none => return .error .notText
  catch
    | .noFileOrDirectory .. => return .error .missing
    | other => return .error (.other (toString other))

/-- Runs the command that the arguments make. -/
def main (arguments : List String) : IO UInt32 := do
  let paths := (CommandLine.Command.ofArguments? arguments).elim [] CommandLine.Command.paths
  let contents ← paths.mapM fun path => return (path, ← CommandLine.readText path)
  let rolled : Seed := ⟨UInt32.ofNat (← IO.rand 0 (UInt32.size - 1))⟩
  let files : CommandLine.Files := fun path => (contents.lookup path).getD (.error .missing)
  let ending := CommandLine.run files rolled arguments
  match ending with
  | .badUsage =>
    IO.eprintln "usage: (analyze | reachable | seed [VALUE]) [OPTIONS]"
  | .ran outcome =>
    outcome.printed.forM fun text => IO.println text
    match outcome.fault with
    | some fault => IO.eprintln ("Error: " ++ fault.message)
    | none => pure ()
  return UInt32.ofNat ending.exitCode
