import Mathlib.Logic.Function.Basic
import MeshControl.Proofs.Client.Calling
import MeshControl.Proofs.Connection.Lossless

/-!
Clients, a server, and the streams between them. A `Network` moves by what its parts do, in any
order: a client sends a request and is blocked until the reply has come, bytes get across in either
direction in any pieces, and the server serves one of its connections. What the callers see of it is
its history.

`Direct` has the histories of callers that use one backend without a server between. Each call is
carried out at once, at some moment between its beginning and its end.
-/

namespace MeshControl

/-- A client, with its connection as it is seen from the client's side. -/
structure Seat where
  /-- The id that the server has given to the connection. -/
  id : Nat
  client : Client := {}
  /-- The request that the client is waiting for the reply to. -/
  awaiting : Option Request := none
  /-- The number of bytes that have come from the server. -/
  brought : Nat := 0

/-- What is seen of a call: its beginning, and its end with what it gives back. -/
inductive Observation where
  | called (number : Nat) (request : Request)
  | returned (number : Nat) (result : CallResult)
deriving DecidableEq

/-- A server in memory and its clients, in the order in which they have connected. -/
structure Network where
  server : Server MemoryBackend
  seats : List Seat := []
  history : List Observation := []

inductive NetworkAction where
  /-- A client connects over a stream that accepts every write. -/
  | connect (upcoming : List Acceptance) (haccepting : Outlet.IsAccepting { upcoming }) (now : Nat)
  /-- A client that is not waiting begins a call. -/
  | call (number : Nat) (request : Request)
  /-- Bytes of a client come to the server, as many as there are up to `count`. -/
  | carry (number count : Nat)
  /-- A read of the server from a client will be interrupted. -/
  | interrupt (number : Nat)
  | serve (number now : Nat)
  /-- The server publishes the current value of a kind. -/
  | notify (kind : EventKind)
  /-- The server closes and collects what has to go. -/
  | tidy (now : Nat)
  /-- Bytes of the server come to a client, as many as there are up to `count`. -/
  | bring (number count : Nat)
  /-- A client that is waiting looks whether it has its reply. -/
  | settle (number : Nat)

/-- How a call ends, unless it has to wait for more to arrive. -/
def Client.ending? :
    EStateM.Result ClientError Client (Option String) → Option (CallResult × Client)
  | .error (.connection .tryAgain) _ => none
  | .error e client => some (.error e, client)
  | .ok value client => some (.ok value, client)

theorem Client.ending?_give {result : CallResult} {client : Client}
    (hresult : result ≠ .error (.connection .tryAgain)) :
    Client.ending? (Client.give result client) = some (result, client) := by
  cases result with
  | ok value => rfl
  | error e =>
    cases e with
    | connection fault =>
      cases fault with
      | tryAgain => exact absurd rfl hresult
      | _ => rfl
    | _ => rfl

namespace Network

def setSeat (network : Network) (number : Nat) (seat : Seat) : Network :=
  { network with seats := network.seats.set number seat }

def observe (network : Network) (seen : List Observation) : Network :=
  { network with history := network.history ++ seen }

/-- Connects one more client. A client that the server refuses gets no seat. -/
def connect (network : Network) (upcoming : List Acceptance) (now : Nat) : Network :=
  match network.server.accept {} { upcoming } now with
  | (.accepted id, server) => { network with server, seats := network.seats ++ [{ id }] }
  | (_, server) => { network with server }

/-- Begins a call. A client that is still blocked in one does not begin another. -/
def call (network : Network) (number : Nat) (seat : Seat) (request : Request) : Network :=
  match seat.awaiting with
  | some _ => network
  | none =>
    match Client.send request seat.client with
    | .ok _ client =>
      (network.setSeat number { seat with client, awaiting := some request }).observe
        [.called number request]
    | .error e client =>
      (network.setSeat number { seat with client }).observe
        [.called number request, .returned number (.error e)]

/-- Lets a chunk of what a client has sent arrive at its connection. -/
def carry (network : Network) (number : Nat) (seat : Seat) (count : Nat) : Network :=
  let channel := seat.client.channel
  match channel.sent.take count with
  | [] => network
  | bytes =>
    let client := { seat.client with channel := { channel with sent := channel.sent.drop count } }
    { network with server := network.server.modify seat.id (·.arrive [.data bytes]) }.setSeat number
      { seat with client }

/-- Brings bytes to a client. The client's stream ends when the connection is closed and all its
bytes have come. -/
def bring (network : Network) (number : Nat) (seat : Seat) (count : Nat) : Network :=
  match network.server.registry.get? seat.id with
  | none =>
    let client := { seat.client with channel := seat.client.channel.drop }
    network.setSeat number { seat with client }
  | some connection =>
    let left := connection.outlet.bytes.drop seat.brought
    let channel := seat.client.channel.deliver (left.take count)
    let channel := if connection.isOpen || count < left.length then channel else channel.drop
    network.setSeat number
      { seat with
        client := { seat.client with channel }
        brought := seat.brought + (left.take count).length }

/-- Ends the call of a client, if its reply has come. Otherwise the client is blocked: it keeps what
has come and waits for the rest. -/
def settle (network : Network) (number : Nat) (seat : Seat) : Network :=
  match seat.awaiting with
  | none => network
  | some request =>
    match Client.ending? (Client.settleCall request seat.client) with
    | none => network
    | some (result, client) =>
      (network.setSeat number { seat with client, awaiting := none }).observe
        [.returned number result]

/-- What the client with a number does, if there is one. -/
def atSeat (network : Network) (number : Nat) (step : Seat → Network) : Network :=
  network.seats[number]?.elim network step

/-- The network after a step. -/
def act (network : Network) : NetworkAction → Network
  | .connect upcoming _ now => network.connect upcoming now
  | .call number request => network.atSeat number (network.call number · request)
  | .carry number count => network.atSeat number (network.carry number · count)
  | .interrupt number => network.atSeat number fun seat =>
    { network with server := network.server.modify seat.id (·.arrive [.interrupted]) }
  | .serve number now => network.atSeat number fun seat =>
    { network with server := network.server.serve seat.id now }
  | .notify kind => { network with server := (network.server.notify kind).2 }
  | .tidy now => { network with server := (network.server.closeIdle now).collect }
  | .bring number count => network.atSeat number (network.bring number · count)
  | .settle number => network.atSeat number (network.settle number ·)

/-- The current value of every kind that anybody is subscribed to fits into a frame. -/
def EventsFit (network : Network) : Prop :=
  ∀ connection ∈ network.server.registry.connections, ∀ kind ∈ connection.subscriptions.toList,
    (ServerMessage.event (Backend.currentEvent network.server.backend kind)).Fits

instance (network : Network) : Decidable network.EventsFit :=
  inferInstanceAs (Decidable (∀ connection ∈ network.server.registry.connections,
    ∀ kind ∈ connection.subscriptions.toList,
      2 + (ServerMessage.event (Backend.currentEvent network.server.backend kind)).size ≤
        maxPayload))

/-- What a server without clients comes to while every event fits. -/
inductive Reached (config : ServerConfig) (backend : MemoryBackend) : Network → Prop where
  | start : Reached config backend { server := { config, backend } }
  | step {network : Network} (action : NetworkAction) (hreached : Reached config backend network)
    (hfit : (network.act action).EventsFit) : Reached config backend (network.act action)

end Network

/-- How far a call has come that is carried out without a server. -/
inductive Stage where
  | idle
  | asked (request : Request)
  | answered (request : Request) (result : CallResult)

/-- The request of a call that has not ended. -/
def Stage.request? : Stage → Option Request
  | idle => none
  | asked request => some request
  | answered request _ => some request

/-- Whether a request is short enough for a frame. -/
def Request.Fits (request : Request) : Prop := 2 + Field.totalSize request.fields ≤ maxPayload

/-- The histories of callers that use one backend directly, with how far each caller has come and
what the backend has become. A request that is too long fails and is not carried out. -/
inductive Direct (start : MemoryBackend) :
    List Observation → (Nat → Stage) → MemoryBackend → Prop where
  | start : Direct start [] (fun _ => .idle) start
  | called {history : List Observation} {stages : Nat → Stage} {backend : MemoryBackend}
    (hdirect : Direct start history stages backend) (number : Nat) (request : Request)
    (hidle : stages number = .idle) (hfits : request.Fits) :
    Direct start (history ++ [.called number request])
      (Function.update stages number (.asked request)) backend
  | refused {history : List Observation} {stages : Nat → Stage} {backend : MemoryBackend}
    (hdirect : Direct start history stages backend) (number : Nat) (request : Request)
    (hidle : stages number = .idle) (hlong : ¬ request.Fits) (e : WireError) :
    Direct start (history ++ [.called number request, .returned number (.error (.wire e))]) stages
      backend
  | applied {history : List Observation} {stages : Nat → Stage} {backend : MemoryBackend}
    (hdirect : Direct start history stages backend) (number : Nat) (request : Request)
    (hasked : stages number = .asked request) :
    Direct start history
      (Function.update stages number (.answered request (backend.apply request).1))
      (backend.apply request).2
  | returned {history : List Observation} {stages : Nat → Stage} {backend : MemoryBackend}
    (hdirect : Direct start history stages backend) (number : Nat) (request : Request)
    (result : CallResult) (hanswered : stages number = .answered request result) :
    Direct start (history ++ [.returned number result]) (Function.update stages number .idle)
      backend

end MeshControl
