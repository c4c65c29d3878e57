import Recalc.Cli

/-!
# The program

Runs a command line on the files of the operating system.
-/

namespace Recalc.Cli

/-- Why the system refused a file. Codes come with either sign. -/
def FileError.ofSystem : IO.Error → FileError
  | .noFileOrDirectory .. => .missing
  | .inappropriateType _ code _ => if code = 20 || -code = 20 then .notDirectory else .directory
  | .permissionDenied .. => .denied
  | e@(.invalidArgument _ code _) =>
      if code = 36 || -code = 36 then .nameTooLong else .other (toString e)
  | e => .other (toString e)

/-- The operating system's files and clock. A directory can be opened, but not read. -/
def system : Host IO where
  readFile path := do
    try return .ok (← IO.FS.readBinFile path).toList
    catch e =>
      match FileError.ofSystem e with
      | .directory => return .error (.reading .directory)
      | cause => return .error (.file cause)
  writeFile path bytes := do
    try
      IO.FS.writeBinFile path ⟨bytes.toArray⟩
      return .ok ()
    catch e => return .error (.file (FileError.ofSystem e))
  timed computation := do
    let begun ← IO.monoNanosNow
    let x ← IO.lazyPure computation
    return (x, (← IO.monoNanosNow) - begun)

/-- Print a piece of output. -/
def Output.print : Output → IO Unit
  | .text s => IO.print s
  | .timing phase nanoseconds => IO.println (Report.line phase.name (Duration.render nanoseconds))

end Recalc.Cli

def main (arguments : List String) : IO UInt32 := do
  let outcome ← Recalc.Cli.run Recalc.Cli.system arguments
  outcome.output.forM Recalc.Cli.Output.print
  IO.eprint outcome.errors
  return outcome.exit.toUInt32
