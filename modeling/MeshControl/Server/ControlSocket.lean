import MeshControl.Server.Basic
/-!
A server together with its control socket and the peers at the other ends. Peers connect, send and
leave at any time; the server learns of it in passes. A pass serves the sources that have become
ready, each once, in the order in which they became ready and at most as many as the settings
allow. The listener, when it is served, accepts every peer that waits. A connection, when it is
served, is read until nothing more arrives, so that it is ready again only when something new has
arrived.
-/

namespace MeshControl

/-- What is at the path of a control socket before the socket is bound. -/
inductive SocketPlace where
  | free
  /-- A file or a socket that nobody listens on, which gives way to the new socket. -/
  | stale
  | directory
  /-- The directory that should hold the socket is not there. -/
  | missingDirectory
deriving DecidableEq, Repr

/-- Why a control socket cannot be bound at a place, if it cannot. -/
def SocketPlace.bindFault? : SocketPlace → Option SystemFault
  | free => none
  | stale => none
  | directory => some .addressInUse
  | missingDirectory => some .notFound

/-- How a peer stands with the server. -/
inductive PeerLink where
  /-- The peer has not been accepted yet. -/
  | waiting (inlet : Inlet) (outlet : Outlet)
  /-- The peer has a connection, which may be closed or collected by now. -/
  | accepted (id : Nat)
  /-- The server had no place for the peer. -/
  | refused

structure Peer where
  link : PeerLink := .waiting {} {}
  /-- Whether the peer's end has not been given up. -/
  isPresent : Bool := true
  /-- Whether the peer may still send. -/
  isSending : Bool := true

inductive Source where
  | listener
  | connection (id : Nat)
deriving DecidableEq, Repr

/-- A server with its control socket. Peers are numbered in the order in which they connect. -/
structure ControlSocket (β : Type) where
  server : Server β
  peers : List Peer := []
  /-- The sources to be served, in the order in which they became ready. -/
  ready : List Source := []
  /-- Whether the socket can still be found at its path. -/
  isLinked : Bool := true
  /-- The time in milliseconds. -/
  clock : Nat := 0

/-- What one peer has received. -/
structure Receipt where
  peer : Nat
  bytes : Bytes
  isClosed : Bool

namespace ControlSocket

variable {β : Type}

def bind (config : ServerConfig) (backend : β) (place : SocketPlace) :
    Except ServerError (ControlSocket β) :=
  match place.bindFault? with
  | some fault => .error (.bindFailed config.socketPath fault)
  | none => .ok { server := { config, backend } }

/-- Notes that a source is ready, if that is not known yet. -/
def wake (socket : ControlSocket β) (source : Source) : ControlSocket β :=
  if source ∈ socket.ready then socket else { socket with ready := socket.ready ++ [source] }

/-- Replaces what is known of a peer. -/
def setPeer (socket : ControlSocket β) (number : Nat) (peer : Peer) : ControlSocket β :=
  { socket with peers := socket.peers.set number peer }

def isOpen (socket : ControlSocket β) (id : Nat) : Bool :=
  (socket.server.registry.get? id).any (·.isOpen)

/-- Whether the server has closed the connection to a peer, or never had one. -/
def isClosed (socket : ControlSocket β) : PeerLink → Bool
  | .waiting .. => false
  | .accepted id => !socket.isOpen id
  | .refused => true

/-- Changes the stream of a peer, and wakes its connection if it has an open one. -/
def modifyStream (socket : ControlSocket β) (number : Nat) (peer : Peer)
    (change : Inlet × Outlet → Inlet × Outlet) : ControlSocket β :=
  match peer.link with
  | .waiting inlet outlet =>
    let (inlet, outlet) := change (inlet, outlet)
    socket.setPeer number { peer with link := .waiting inlet outlet }
  | .accepted id =>
    let socket := socket.setPeer number peer
    if socket.isOpen id then
      let registry := socket.server.registry.modify id fun connection =>
        let (inlet, outlet) := change (connection.inlet, connection.outlet)
        { connection with inlet, outlet }
      { socket with server := { socket.server with registry } }.wake (.connection id)
    else socket
  | .refused => socket.setPeer number peer

/-- Connects one more peer, and gives its number. -/
def connect (socket : ControlSocket β) : Nat × ControlSocket β :=
  (socket.peers.length, { socket with peers := socket.peers ++ [({} : Peer)] }.wake .listener)

/-- Sends bytes from a peer, and tells whether they could be sent. -/
def send (socket : ControlSocket β) (number : Nat) (bytes : Bytes) : Bool × ControlSocket β :=
  match socket.peers[number]? with
  | none => (false, socket)
  | some peer =>
    if peer.isPresent && peer.isSending && !socket.isClosed peer.link then
      if bytes.isEmpty then (true, socket)
      else
        (true, socket.modifyStream number peer fun (inlet, outlet) =>
          (inlet.push (.data bytes), outlet))
    else (false, socket)

/-- Ends what a peer sends, and tells whether the peer was there. The peer still receives. -/
def finish (socket : ControlSocket β) (number : Nat) : Bool × ControlSocket β :=
  match socket.peers[number]? with
  | none => (false, socket)
  | some peer =>
    if peer.isPresent then
      (true, socket.modifyStream number { peer with isSending := false } fun (inlet, outlet) =>
        (inlet.finish, outlet))
    else (false, socket)

/-- Gives up a peer's end, and tells whether the peer was there. What it has sent still arrives, but
nothing more can be written to it. -/
def drop (socket : ControlSocket β) (number : Nat) : Bool × ControlSocket β :=
  match socket.peers[number]? with
  | none => (false, socket)
  | some peer =>
    if peer.isPresent then
      (true, socket.modifyStream number { peer with isPresent := false } fun (inlet, outlet) =>
        (inlet.finish, { outlet with upcoming := [.failed .brokenPipe] }))
    else (false, socket)

/-- Removes the socket from its path, and tells whether it was there. Nothing else changes. -/
def unlink (socket : ControlSocket β) : Bool × ControlSocket β :=
  (socket.isLinked, { socket with isLinked := false })

def advance (socket : ControlSocket β) (milliseconds : Nat) : ControlSocket β :=
  { socket with clock := socket.clock + milliseconds }

/-- Accepts a peer, if it waits. What it has sent before makes its connection ready. -/
def acceptPeer (socket : ControlSocket β) (number : Nat) : ControlSocket β :=
  match socket.peers[number]? with
  | some { link := .waiting inlet outlet, isPresent, isSending } =>
    match socket.server.accept inlet outlet socket.clock with
    | (.accepted id, server) =>
      let socket := { socket with server }.setPeer number
        { link := .accepted id, isPresent, isSending }
      if inlet.isQuiet then socket else socket.wake (.connection id)
    | (_, server) =>
      { socket with server }.setPeer number { link := .refused, isPresent, isSending }
  | _ => socket

def acceptAll (socket : ControlSocket β) : ControlSocket β :=
  (List.range socket.peers.length).foldl acceptPeer socket

/-- Takes out what the peers have received since the last time. A peer that has received nothing is
told of only if its connection is closed. -/
def receive (socket : ControlSocket β) : List Receipt × ControlSocket β :=
  let (written, registry) := socket.server.registry.flush
  let receipt (peer : Peer) (number : Nat) : Option Receipt :=
    let bytes := match peer.link with
      | .accepted id => written.flatMap fun (writer, bytes) => if writer = id then bytes else []
      | _ => []
    let isClosed := socket.isClosed peer.link
    if peer.isPresent && (isClosed || !bytes.isEmpty) then
      some { peer := number, bytes, isClosed }
    else none
  (socket.peers.zipIdx.filterMap fun (peer, number) => receipt peer number,
    { socket with server := { socket.server with registry } })

variable [Backend β]

def serve (socket : ControlSocket β) : Source → ControlSocket β
  | .listener => socket.acceptAll
  | .connection id => { socket with server := socket.server.serve id socket.clock }

/-- Closes and collects what has to go before a pass. A connection that is gone is ready no more. -/
def tidy (socket : ControlSocket β) : ControlSocket β :=
  let socket := { socket with server := (socket.server.closeIdle socket.clock).collect }
  { socket with
    ready := socket.ready.filter fun
      | .listener => true
      | .connection id => socket.isOpen id }

/-- Runs one pass without waiting. A pass that may serve no source at all fails. -/
def poll (socket : ControlSocket β) : Except ServerError Unit × ControlSocket β :=
  let socket := socket.tidy
  match socket.server.config.maxEvents with
  | 0 => (.error (.stream (.system .invalidArgument)), socket)
  | limit =>
    let (batch, later) := socket.ready.splitAt limit
    (.ok (), batch.foldl serve { socket with ready := later })

end ControlSocket

end MeshControl
