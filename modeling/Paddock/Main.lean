import Paddock.Supercar

/-!
# Supercar — the command

The command writes what a run of the program puts on its output, and tells from the failure of that
what the output is connected to.  The log filter is set in the environment.
-/

open Paddock

/-- The variable of the environment that holds the log filter. -/
def filterVariable : String := "RUST_LOG"

/-- Writes the output of a run that succeeds and reports what became of it. -/
def probeOutput (setting : Option String) (arguments : List String) : IO Supercar.Outlet := do
  let output ← IO.getStdout
  try
    output.write ⟨(Supercar.run setting arguments .pipe).stdout.toArray⟩
    output.flush
    return .pipe
  catch
    | .resourceExhausted .. => return .full
    | _ => return .broken

/-- Runs the program. -/
def main (arguments : List String) : IO UInt32 := do
  let setting ← IO.getEnv filterVariable
  let outlet ← probeOutput setting arguments
  let exit := Supercar.run setting arguments outlet
  exit.stderr.forM IO.eprintln
  return exit.code.toUInt32
