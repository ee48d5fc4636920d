import MeshControl.Backend.Memory
import MeshControl.CommandLine.Grammar
import MeshControl.CommandLine.Report
import MeshControl.Server.ControlSocket
import MeshControl.Text.Decimal
/-!
The daemon's command line: the settings of a server that keeps its network data in memory, and the
name of its tunnel.
-/

namespace MeshControl.CommandLine.Daemon

structure Invocation where
  config : ServerConfig := {}
  tunnelName : Option String := none
deriving DecidableEq, Repr

/-- Reads a size of up to sixty-four bits. -/
def size? (text : String) : Option Nat :=
  match Text.Decimal.readUpTo maxSize text with
  | .ok size => some size
  | .error _ => none

/-- The grammar of a line. The path of the socket is not empty, and the limit on idleness is in
seconds. -/
def grammar : Grammar Invocation where
  options :=
    [.value "socket" (some 's') fun path line =>
        if path.isEmpty then none
        else some { line with config := { line.config with socketPath := path } },
      .value "initial-buffer-size" none fun text line =>
        (size? text).map fun bufferSize =>
          { line with config := { line.config with bufferSize } },
      .value "max-connections" none fun text line =>
        (size? text).map fun maxConnections =>
          { line with config := { line.config with maxConnections } },
      .value "idle-timeout-secs" none fun text line =>
        (size? text).map fun seconds =>
          { line with config := { line.config with idleLimit := some (1000 * seconds) } },
      .value "tunnel-name" (some 't') fun name line =>
        some { line with tunnelName := some name }]

def read (line : List String) : Except Refusal Invocation := grammar.read {} line

/-- A daemon at work. -/
abbrev Host := ControlSocket MemoryBackend

/-- Starts the daemon that a line asks for. -/
def start (invocation : Invocation) (place : SocketPlace) : Except Report Host :=
  match ControlSocket.bind invocation.config { tunnelName := invocation.tunnelName } place with
  | .ok daemon => .ok daemon
  | .error e =>
    .error (.within s!"failed to start server on {invocation.config.socketPath}" (.ofServer e))

/-- Lets a little time pass and runs a pass. -/
def turn (daemon : Host) : Host := (daemon.advance 1).poll.2

/-- Lets a peer connect, send bytes and end its side, and gives what it receives. One pass accepts
the peer and the next serves it to its end. -/
def converse (daemon : Host) (bytes : Bytes) : Bytes × Host :=
  let (number, daemon) := daemon.connect
  let (_, daemon) := daemon.send number bytes
  let (_, daemon) := daemon.finish number
  let (receipts, daemon) := (turn (turn daemon)).receive
  let received := receipts.flatMap fun receipt =>
    if receipt.peer = number then receipt.bytes else []
  (received, daemon)

/-- Lets peers come one after another. -/
def converseAll (daemon : Host) : List Bytes → List Bytes
  | [] => []
  | bytes :: rest =>
    let (received, daemon) := converse daemon bytes
    received :: converseAll daemon rest

end MeshControl.CommandLine.Daemon
