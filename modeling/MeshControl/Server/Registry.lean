import MeshControl.Connection.Exchange
/-!
All the connections of a server, in the order in which they were accepted. Ids count up from one
and are never given twice. A closed connection stays until it is collected, so that whoever walks
through the connections never loses one on the way.

An event is published to every connection that is open and subscribed to its kind, each on its own:
a push that fails closes that one connection.
-/

namespace MeshControl

/-- The connections of a server, and the next id. -/
structure Registry where
  connections : List Connection := []
  nextId : Nat := 1

/-- One push of an event: the connection, and the failure if it failed. -/
structure Push where
  id : Nat
  failure : Option ServerError := none

namespace Connection

/-- Pushes an event to the connection, if it is open and subscribed. -/
def push (event : Event) (connection : Connection) : Option Push × Connection :=
  if connection.receives event.kind then
    match Exchange.sendEvent event connection with
    | .ok _ after => (some { id := connection.id }, after)
    | .error e after => (some { id := connection.id, failure := some e }, after)
  else (none, connection)

/-- Whether the connection is open and has been silent for longer than a limit. -/
def expires (now limit : Nat) (connection : Connection) : Bool :=
  connection.isOpen && connection.isIdle now limit

end Connection

namespace Registry

/-- Adds a connection whose input has room for `capacity` bytes, and gives its id. A failure uses
up no id. -/
def allocate (registry : Registry) (inlet : Inlet) (outlet : Outlet) (capacity now : Nat) :
    Except WireError (Nat × Registry) := do
  let input ← Buffer.withCapacity capacity
  let connection : Connection :=
    { id := registry.nextId, inlet, outlet, input, lastActivity := now }
  return (registry.nextId,
    { connections := registry.connections ++ [connection], nextId := registry.nextId + 1 })

def get? (registry : Registry) (id : Nat) : Option Connection :=
  registry.connections.find? (·.id == id)

/-- Puts a connection in the place of the one with its id. -/
def replace (registry : Registry) (connection : Connection) : Registry :=
  { registry with
    connections := registry.connections.map fun other =>
      if other.id = connection.id then connection else other }

/-- Changes the connection with an id, if there is one. -/
def modify (registry : Registry) (id : Nat) (change : Connection → Connection) : Registry :=
  match registry.get? id with
  | some connection => registry.replace (change connection)
  | none => registry

/-- The number of connections, closed ones included. -/
def size (registry : Registry) : Nat := registry.connections.length

def liveCount (registry : Registry) : Nat := registry.connections.countP (·.isOpen)

/-- Removes the closed connections and tells how many there were. -/
def collect (registry : Registry) : Nat × Registry :=
  (registry.connections.countP (!·.isOpen),
    { registry with connections := registry.connections.filter (·.isOpen) })

/-- Closes the open connections that have been silent for longer than a limit, and tells how many
there were. -/
def closeIdle (registry : Registry) (now limit : Nat) : Nat × Registry :=
  (registry.connections.countP (·.expires now limit),
    { registry with
      connections := registry.connections.map fun connection =>
        if connection.expires now limit then connection.close else connection })

/-- Pushes an event to every open connection that is subscribed to its kind, in the order of their
ids, and tells of each push. -/
def publish (registry : Registry) (event : Event) : List Push × Registry :=
  let pushed := registry.connections.map (·.push event)
  (pushed.filterMap Prod.fst, { registry with connections := pushed.map Prod.snd })

/-- Takes out what the streams were left since the last time, each write with the id of its
connection. -/
def flush (registry : Registry) : List (Nat × Bytes) × Registry :=
  (registry.connections.flatMap fun connection => connection.outlet.taken.map (connection.id, ·),
    { registry with
      connections := registry.connections.map fun connection =>
        { connection with outlet := connection.outlet.forget } })

end Registry

end MeshControl
