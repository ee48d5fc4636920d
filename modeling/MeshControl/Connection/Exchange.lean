import MeshControl.Connection.Basic
import MeshControl.Message.Reply
/-!
Reading the message at hand and answering it. Every failure closes the connection, and nothing is
read from or written to a closed one. A message is written in one piece: one that the stream takes
only in part is a failure too.
-/

namespace MeshControl

/-- A failure of a server or of one of its connections. -/
inductive ServerError where
  | wire (error : WireError)
  | stream (fault : Fault)
  | closed
  /-- A message was taken only in part. -/
  | shortWrite (written expected : Nat)
  /-- The control socket cannot be had. -/
  | bindFailed (path : String) (fault : SystemFault)
deriving DecidableEq, Repr

def ServerError.message : ServerError → String
  | wire error => s!"wire protocol error: {error.message}"
  | stream fault => s!"i/o error: {fault.message}"
  | closed => "connection closed"
  | shortWrite written expected => s!"short write: {written} instead of {expected} bytes"
  | bindFailed path fault => s!"failed to bind to {path}: {fault.message}"

/-- What lies behind the failure, in words, outermost first. -/
def ServerError.causes : ServerError → List String
  | wire error => error.message :: error.causes
  | stream fault => [fault.message]
  | bindFailed _ fault => [fault.message]
  | _ => []

/-- A step of an exchange with a peer, which may fail. -/
abbrev Exchange := EStateM ServerError Connection

namespace Exchange

/-- Goes back to the start of the message. -/
def restart : Exchange Unit :=
  modify fun connection => { connection with position := 0 }

/-- Reads on in the message. A failure closes the connection and leaves the position. -/
def read {α : Type} (decoder : Decoder α) : Exchange α := fun connection =>
  if connection.isOpen then
    match decoder (Reader.resume connection.message connection.position) with
    | .ok value reader => .ok value { connection with position := reader.position }
    | .error e _ => .error (.wire e) connection.close
  else .error .closed connection

/-- Builds a message of a type from fields and writes it. -/
def send (type : MessageType) (space : Nat) (fields : List Field) : Exchange Unit :=
  fun connection =>
    if connection.isOpen then
      match Frame.build type space fields connection.output with
      | .error e output => .error (.wire e) { connection with output }.close
      | .ok frame output =>
        let (taken, outlet) := connection.outlet.write frame
        let connection := { connection with output, outlet }
        match taken with
        | .error fault => .error (.stream fault) connection.close
        | .ok count =>
          if count = frame.length then .ok () connection
          else .error (.shortWrite count frame.length) connection.close
    else .error .closed connection

def sendMessage (message : ServerMessage) : Exchange Unit :=
  send message.type message.size message.fields

/-- Answers the latest request with a status. -/
def respond (status : Status) : Exchange Unit := do
  let connection ← get
  sendMessage (.reply (.response connection.messageCode status))

/-- Answers the latest request with the name of the tunnel, or its absence. -/
def respondTunnelName (status : Status) (name : Option String) : Exchange Unit := do
  let connection ← get
  sendMessage (.reply (.tunnelName connection.messageCode status name))

def sendEvent (event : Event) : Exchange Unit := sendMessage (.event event)

end Exchange

end MeshControl
