/-
# The command

Reads the standard input when the template comes from there, runs the command on its arguments, and
prints what it leaves behind.
-/
import Stencil.Cli.Run

open Stencil

/-- The whole standard input as text; `none` if it is not UTF-8. -/
def readInput : IO (Option String) := do
  let bytes ← (← IO.getStdin).readBinToEnd
  return String.fromUTF8? bytes

def main (args : List String) : IO UInt32 := do
  let output ← IO.getStdout
  let input? ← if Cli.needsInput args then readInput else pure (some "")
  match input? with
  | none =>
    IO.eprintln "error: failed to read stdin: stream did not contain valid UTF-8"
    return 2
  | some input =>
    let outcome := Cli.run (← output.isTty) args input
    output.putStr outcome.output
    output.flush
    IO.eprint outcome.errors
    return UInt32.ofNat outcome.code
