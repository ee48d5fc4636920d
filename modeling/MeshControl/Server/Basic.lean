import MeshControl.Connection.Dispatch
import MeshControl.Server.Config
import MeshControl.Server.Registry
/-!
A server as a state with steps. It accepts peers up to its limit, handles what arrives on one
connection at a time, and then publishes the current value of every kind that has changed.
-/

namespace MeshControl

/-- A server: its settings, its connections, and the network stack behind it. -/
structure Server (β : Type) where
  config : ServerConfig
  registry : Registry := {}
  backend : β

/-- What becomes of a peer that asks to be accepted. -/
inductive Admission where
  | accepted (id : Nat)
  /-- As many connections are open as there may be. -/
  | full
  /-- There is no memory for its input. -/
  | noMemory
deriving DecidableEq, Repr

namespace Server

variable {β : Type}

/-- Accepts a peer, if there is place for it. -/
def accept (server : Server β) (inlet : Inlet) (outlet : Outlet) (now : Nat) :
    Admission × Server β :=
  if server.config.maxConnections ≤ server.registry.liveCount then (.full, server)
  else
    match server.registry.allocate inlet outlet server.config.bufferSize now with
    | .ok (id, registry) => (.accepted id, { server with registry })
    | .error _ => (.noMemory, server)

/-- Closes the connections that have been silent for too long, if there is a limit. -/
def closeIdle (server : Server β) (now : Nat) : Server β :=
  match server.config.idleLimit with
  | some limit => { server with registry := (server.registry.closeIdle now limit).2 }
  | none => server

/-- Removes the closed connections. -/
def collect (server : Server β) : Server β :=
  { server with registry := server.registry.collect.2 }

variable [Backend β]

/-- Publishes the current value of a kind, and tells of each push. -/
def notify (server : Server β) (kind : EventKind) : List Push × Server β :=
  let (pushes, registry) :=
    server.registry.publish (Backend.currentEvent server.backend kind)
  (pushes, { server with registry })

/-- Publishes the current values of all the kinds in a set, in the order of the kinds. -/
def notifyAll (server : Server β) (changed : EventSet) : Server β :=
  changed.toList.foldl (fun server kind => (server.notify kind).2) server

/-- Handles everything that has arrived on a connection, and publishes what has changed. -/
def serve (server : Server β) (id now : Nat) : Server β :=
  match server.registry.get? id with
  | none => server
  | some connection =>
    let (changed, connection, backend) := connection.handleAll now server.backend
    { server with registry := server.registry.replace connection, backend }.notifyAll changed

end Server

end MeshControl
