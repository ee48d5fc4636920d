import MeshControl.CommandLine.Admin
import MeshControl.CommandLine.Daemon
/-!
The administrator's tasks carried out against a daemon at hand. Each line has a connection of its
own, which ends when the task is done. A task sends the same request whatever is answered, so that
what it sends is found by a run that is answered nothing, and what it comes to by a second run that
is given the answer.
-/

namespace MeshControl.CommandLine.Console

structure Outcome where
  printed : List String := []
  complaint : String := ""
  exitCode : Nat := 0
deriving DecidableEq, Repr

/-- What a refused line comes to. -/
def refused : Refusal → Outcome
  | .help => { printed := ["Usage: [--socket PATH] COMMAND [ARGUMENTS]"] }
  | .usage => { complaint := "Error: this is no command line\n", exitCode := 2 }

/-- What a task comes to. -/
def finished (performance : Admin.Performance) : Outcome :=
  match performance.failure with
  | none => { printed := performance.printed }
  | some report =>
    { printed := performance.printed, complaint := report.render, exitCode := 1 }

/-- What a task sends, whatever is answered. -/
def request (task : Admin.Task) : Bytes := (task.run {}).client.channel.sent

/-- What a task comes to when it is answered with the given bytes. -/
def answered (task : Admin.Task) (bytes : Bytes) : Admin.Performance :=
  task.run { channel := (Channel.deliver {} bytes).finish }

def run (daemon : Daemon.Host) (line : List String) : Outcome × Daemon.Host :=
  match Admin.read line with
  | .error refusal => (refused refusal, daemon)
  | .ok invocation =>
    let (reply, daemon) := Daemon.converse daemon (request invocation.task)
    (finished (answered invocation.task reply), daemon)

end MeshControl.CommandLine.Console
