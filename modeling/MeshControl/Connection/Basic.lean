import MeshControl.Message.EventKind
import MeshControl.Stream.Inlet
import MeshControl.Stream.Outlet
import MeshControl.Wire.Buffer
/-!
A connection with one peer: its stream, the message that it is collecting or handling, and the
kinds of events that the peer has subscribed to. Closing a connection gives up its stream; the
connection itself stays until it is collected.
-/

namespace MeshControl

/-- What a connection is waiting for. -/
inductive Phase where
  /-- The two bytes that tell the length of the next body. -/
  | header
  | body (length : UInt16)
deriving DecidableEq, Repr

/-- The number of bytes that a phase needs. -/
def Phase.expected : Phase → Nat
  | header => 2
  | body length => length.toNat

structure Connection where
  id : Nat
  isOpen : Bool := true
  inlet : Inlet := {}
  outlet : Outlet := {}
  /-- The bytes of the current phase, or the body of the message that is being handled. -/
  input : Buffer
  /-- Where outgoing messages are built. -/
  output : Buffer := .empty
  phase : Phase := .header
  /-- How far the message that is being handled has been read. -/
  position : Nat := 0
  /-- The type code of the latest message. -/
  messageCode : UInt16 := 0
  subscriptions : EventSet := .empty
  /-- When bytes last arrived, in milliseconds. -/
  lastActivity : Nat := 0

namespace Connection

/-- Closes a connection. A closed connection stays as it is. -/
def close (connection : Connection) : Connection := { connection with isOpen := false }

/-- The body of the message that is being handled. -/
def message (connection : Connection) : Bytes := connection.input.filled

/-- Subscribes the peer to a kind of events. No subscription is ever given up. -/
def subscribe (connection : Connection) (kind : EventKind) : Connection :=
  { connection with subscriptions := connection.subscriptions.insert kind }

def isSubscribed (connection : Connection) (kind : EventKind) : Bool :=
  connection.subscriptions.contains kind

/-- Whether events of a kind are sent to the peer. -/
def receives (connection : Connection) (kind : EventKind) : Bool :=
  connection.isOpen && connection.isSubscribed kind

/-- Whether the connection has been silent for longer than a limit. -/
def isIdle (connection : Connection) (now limit : Nat) : Bool :=
  limit < now - connection.lastActivity

/-- The names of a set's bits with bars between, or a zero for the empty set. -/
def bitNames (set : EventSet) : String :=
  match set.toList with
  | [] => "0x0"
  | kinds => " | ".intercalate (kinds.map EventKind.bitName)

def phaseText : Phase → String
  | .header => "AwaitingLength"
  | .body length => s!"AwaitingBody \x7b length: {length.toNat} \x7d"

def summary (connection : Connection) : String :=
  s!"Connection \x7b id: ConnectionId({connection.id}), closed: {!connection.isOpen}, " ++
    s!"state: {phaseText connection.phase}, " ++
    s!"registered_events: EventFlags({bitNames connection.subscriptions}), .. \x7d"

end Connection

end MeshControl
