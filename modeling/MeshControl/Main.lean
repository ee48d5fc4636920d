import MeshControl.CommandLine.Console
/-!
The program: a daemon started with the arguments of the program, and on standard input one
administrator's line after another, with single blanks between the arguments.
-/

namespace MeshControl

def report (outcome : CommandLine.Console.Outcome) : IO Unit := do
  outcome.printed.forM fun line => IO.println line
  IO.eprint outcome.complaint

/-- Carries out the lines of the input until it ends. -/
partial def serve (input : IO.FS.Stream) (daemon : CommandLine.Daemon.Host) : IO Unit := do
  let line ← input.getLine
  if line.isEmpty then return
  let arguments := line.trimAsciiEnd.toString.splitOn " "
  let (outcome, daemon) := CommandLine.Console.run daemon arguments
  report outcome
  serve input daemon

end MeshControl

def main (arguments : List String) : IO UInt32 := do
  match MeshControl.CommandLine.Daemon.read arguments with
  | .error refusal =>
    let outcome := MeshControl.CommandLine.Console.refused refusal
    MeshControl.report outcome
    return outcome.exitCode.toUInt32
  | .ok invocation =>
    match MeshControl.CommandLine.Daemon.start invocation .free with
    | .error failure =>
      IO.eprint failure.render
      return 1
    | .ok daemon =>
      MeshControl.serve (← IO.getStdin) daemon
      return 0
