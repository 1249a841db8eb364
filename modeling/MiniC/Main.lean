import MiniC.Command

/-!
The command line: reads the file, runs the command, prints.
-/

namespace MiniC

/-- What a file holds. -/
def readSource (path : String) : IO (Except ReadFailure String) := do
  try
    return Command.decode (← IO.FS.readBinFile path)
  catch e =>
    match e with
    | .noFileOrDirectory .. => return .error .missing
    | e => return .error (.system (toString e))

def usage : String :=
  "Usage: minic tokenize FILE | parse FILE | demo\n"

end MiniC

open MiniC in
def main (arguments : List String) : IO UInt32 := do
  let stderr ← IO.getStderr
  match Command.ofArguments? arguments with
  | none =>
    stderr.putStr usage
    return 2
  | some command =>
    let content ← match command.path? with
      | some path => readSource path
      | none => pure (.error .missing)
    let output := command.run content
    IO.print output.out
    stderr.putStr output.err
    return output.status
