import MeshControl.Message.Reply
import MeshControl.Stream.Fault
/-!
What can go wrong while a client makes a call.
-/

namespace MeshControl

/-- What a client waits for. -/
inductive Expectation where
  | response
  | tunnelNameResponse
  | event
deriving DecidableEq, Repr

def Expectation.name : Expectation → String
  | response => "Response"
  | tunnelNameResponse => "TunnelNameResponse"
  | event => "Event"

inductive ClientError where
  | connection (fault : SystemFault)
  | wire (error : WireError)
  /-- The server answers with a status that is no success. -/
  | server (status : Status)
  /-- A reply of another kind, or to another request, came than was expected. -/
  | unexpectedReply (expected : Expectation) (actual : Reply)
  /-- The question for the tunnel's name succeeds without a name. -/
  | missingTunnelName
  | disconnected
deriving DecidableEq

namespace ClientError

/-- The report that something else was expected. -/
def mismatch (expected actual : String) : String :=
  s!"unexpected response: expected {expected}, got {actual}"

def message : ClientError → String
  | connection fault => s!"connection error: {fault.message}"
  | wire error => s!"wire protocol error: {error.message}"
  | server status => s!"server returned {status.text}"
  | unexpectedReply expected actual => mismatch expected.name actual.text
  | missingTunnelName => mismatch "tunnel name" "null string"
  | disconnected => "server closed the connection"

/-- What lies behind the failure, in words, outermost first. -/
def causes : ClientError → List String
  | connection fault => [fault.message]
  | wire error => error.message :: error.causes
  | _ => []

/-- The status that stands for the failure. -/
def status : ClientError → Status
  | server status => status
  | connection .notFound => .daemonNotRunning
  | connection .connectionRefused => .daemonNotRunning
  | disconnected => .disconnected
  | _ => .unknown

end ClientError

end MeshControl
