import MeshControl.Proofs.Client.Crediting
import MeshControl.Proofs.Server.Faring

/-!
A server and one of its clients. A `Session` moves by what the client does, by what the server and
all its other peers do, and by the streams between the two, which bring bytes in any pieces. The
stream to the client may refuse a write or take a part of it, which closes the connection. A session
keeps a record of what the client was told and of the backends that its requests were handled with.
-/

namespace MeshControl

structure Session (β : Type) where
  server : Server β
  /-- The id of the client's connection. -/
  id : Nat
  /-- The client, with what it has asked and what was written to it. -/
  dialogue : Dialogue := {}
  /-- The number of bytes that the stream to the client has taken. -/
  written : Nat := 0
  /-- The backends that the client's requests were handled with, in order. -/
  consulted : List β := []

inductive SessionAction (β : Type) where
  /-- The server acts, or something happens on the stream of a peer. -/
  | attend (action : ServerAction)
  /-- Something becomes of the network stack behind the server. -/
  | shift (backend : β)
  /-- Bytes of the client come to the server, as many as there are up to `count`. -/
  | carry (count : Nat)
  /-- Bytes of the server come to the client, as many as there are up to `count`. -/
  | bring (count : Nat)
  /-- The client's end notices that the connection is closed. -/
  | hangUp
  /-- The client begins a call. -/
  | ask (request : Request)
  /-- The client ends its call with what has arrived. -/
  | settle
  /-- The client takes the next event. -/
  | takeEvent

/-- Whether an action happens behind the back of the client. -/
def SessionAction.isQuiet {β : Type} : SessionAction β → Bool
  | attend _ | shift _ | carry _ | bring _ | hangUp => true
  | ask _ | settle | takeEvent => false

namespace Session

variable {β : Type}

/-- The connection of the client, unless it is collected. -/
def connection? (session : Session β) : Option Connection :=
  session.server.registry.get? session.id

/-- Whether the connection of the client is there and open. -/
def isLive (session : Session β) : Bool := session.connection?.any (·.isOpen)

theorem isLive_of_eq_some {session : Session β} {connection : Connection}
    (h : session.connection? = some connection) : session.isLive = connection.isOpen := by
  rw [isLive, h, Option.any_some]

theorem isLive_of_eq_none {session : Session β} (h : session.connection? = none) :
    session.isLive = false := by
  rw [isLive, h, Option.any_none]

/-- Does a deed of the client. -/
def perform (session : Session β) (deed : Deed) : Session β :=
  { session with dialogue := session.dialogue.act deed }

def setChannel (session : Session β) (channel : Channel) : Session β :=
  { session with
    dialogue := { session.dialogue with client := { session.dialogue.client with channel } } }

/-- Puts under way what the stream to the client has taken since the last time. -/
def convey (session : Session β) : Session β :=
  match session.connection? with
  | none => session
  | some connection =>
    { session with
      dialogue := { session.dialogue with
        letters := connection.outlet.letters
        underWay := session.dialogue.underWay ++ connection.outlet.bytes.drop session.written }
      written := connection.outlet.bytes.length }

theorem convey_of_eq_none {session : Session β} (h : session.connection? = none) :
    session.convey = session := by
  rw [convey, h]

theorem convey_of_eq_some {session : Session β} {connection : Connection}
    (h : session.connection? = some connection) :
    session.convey =
      { session with
        dialogue := { session.dialogue with
          letters := connection.outlet.letters
          underWay := session.dialogue.underWay ++ connection.outlet.bytes.drop session.written }
        written := connection.outlet.bytes.length } := by
  rw [convey, h]

/-- Notices on the client's end that the connection is closed. What is under way still comes. -/
def hangUp (session : Session β) : Session β :=
  if session.isLive then session
  else
    session.setChannel { session.dialogue.client.channel with
      ended := session.dialogue.underWay.isEmpty, isHeard := false }

variable [Backend β]

/-- Lets the server act. What arrives from the client is left to `carry`. -/
def attend (session : Session β) (action : ServerAction) : Session β :=
  if action.spares session.id then
    convey { session with
      server := session.server.act action
      consulted := session.consulted ++ session.server.consults session.id action }
  else session

/-- Lets a chunk of what the client has sent arrive at its connection. -/
def carry (session : Session β) (count : Nat) : Session β :=
  let channel := session.dialogue.client.channel
  match channel.sent.take count with
  | [] => session
  | bytes =>
    { session with server := session.server.act (.arrive session.id (.data bytes)) }.setChannel
      { channel with sent := channel.sent.drop count }

/-- The session after an action. -/
def act (session : Session β) : SessionAction β → Session β
  | .attend action => session.attend action
  | .shift backend => { session with server := { session.server with backend } }
  | .carry count => session.carry count
  | .bring count => session.perform (.bring count)
  | .hangUp => session.hangUp
  | .ask request => session.perform (.ask request)
  | .settle => session.perform .settle
  | .takeEvent => session.perform .takeEvent

/-- What becomes of a client that a server has accepted, whatever the server has done before. -/
inductive Reached : Session β → Prop where
  | start {server accepted : Server β} {upcoming : List Acceptance} {now id : Nat}
    (hruns : server.Runs)
    (haccept : server.accept {} { upcoming } now = (.accepted id, accepted)) :
    Reached { server := accepted, id }
  | step {session : Session β} (action : SessionAction β) (hreached : Reached session) :
    Reached (session.act action)

theorem Reached.foldl {session : Session β} (h : session.Reached)
    (actions : List (SessionAction β)) : (actions.foldl act session).Reached :=
  List.foldlRecOn actions act h fun _ hreached action _ => .step action hreached

end Session

end MeshControl
