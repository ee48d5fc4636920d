import MeshControl.Backend.Basic
import MeshControl.Connection.Exchange
import MeshControl.Connection.Framing
import MeshControl.Message.Request
/-!
Answering the message at hand. A message whose type is a request must consist of that request's
fields exactly; one that does not closes its connection and has no other effect. A well-formed
request is carried out and answered with one reply, a subscription with the current value behind
its reply. Any other type is answered as invalid, whatever follows the type.

The kinds of events whose value has changed are reported only when the reply was written.
-/

namespace MeshControl

/-- The outcome of a request that concerns the network data. -/
structure Change (β : Type) where
  status : Status
  /-- The kind of events that tell of such changes. -/
  kind : EventKind
  backend : β

/-- The kinds whose value has changed. -/
def Change.changed {β : Type} (change : Change β) : EventSet :=
  if change.status.isOk then .single change.kind else .empty

section

variable {β : Type} [Backend β]

/-- Carries out a request that concerns the network data. A prefix that does not have eight bytes
is invalid, and the backend does not see it. -/
def Backend.change? (backend : β) : Request → Option (Change β)
  | .addService enterprise serviceData serverData =>
    let (status, backend) := addService backend { enterprise, serviceData, serverData }
    some ⟨status, .service, backend⟩
  | .removeService enterprise serviceData =>
    let (status, backend) := removeService backend enterprise serviceData
    some ⟨status, .service, backend⟩
  | .addPrefix terms =>
    match MeshPrefix.ofBytes? terms.meshPrefix with
    | none => some ⟨.invalid, .onMeshPrefix, backend⟩
    | some meshPrefix =>
      let entry : OnMeshPrefix :=
        { meshPrefix, length := terms.length, slaac := terms.slaac, onMesh := terms.onMesh,
          stable := terms.stable }
      let (status, backend) :=
        addPrefix backend entry terms.preferredLifetime terms.validLifetime
      some ⟨status, .onMeshPrefix, backend⟩
  | .removePrefix bytes length =>
    match MeshPrefix.ofBytes? bytes with
    | none => some ⟨.invalid, .onMeshPrefix, backend⟩
    | some meshPrefix =>
      let (status, backend) := removePrefix backend meshPrefix length
      some ⟨status, .onMeshPrefix, backend⟩
  | .getTunnelName => none
  | .subscribe _ => none

namespace Exchange

/-- Reads the message at hand as a request, or as nothing if its type is none. The type is noted as
soon as it is read. -/
def receive : Exchange (Option Request) := do
  restart
  let code ← read Decoder.u16
  modify fun connection => { connection with messageCode := code }
  match (MessageType.ofCode? code).bind Request.decode? with
  | some decoder => some <$> read decoder
  | none => return none

def answerTunnelName (backend : β) : Exchange Unit :=
  match Backend.tunnelName backend with
  | .ok name => respondTunnelName .noError (some name)
  | .error status => respondTunnelName status none

/-- Subscribes the peer, says so, and sends the current value. -/
def answerSubscription (backend : β) (kind : EventKind) : Exchange Unit := do
  modify (·.subscribe kind)
  respond .noError
  sendEvent (Backend.currentEvent backend kind)

/-- Receives the message at hand, carries it out and answers it. Gives the kinds whose value has
changed together with the new backend; a failure keeps the backend that it came to. -/
def serve (backend : β) : Exchange (Option (Change β)) := do
  match ← receive with
  | none =>
    respond .invalid
    return none
  | some (.subscribe kind) =>
    answerSubscription backend kind
    return none
  | some .getTunnelName =>
    answerTunnelName backend
    return none
  | some request => return Backend.change? backend request

end Exchange

/-- Handles the message at hand. -/
def Connection.handle (connection : Connection) (backend : β) : EventSet × Connection × β :=
  match Exchange.serve backend connection with
  | .error _ connection => (.empty, connection, backend)
  | .ok none connection => (.empty, connection, backend)
  | .ok (some change) connection =>
    match Exchange.respond change.status connection with
    | .error _ connection => (.empty, connection, change.backend)
    | .ok _ connection => (change.changed, connection, change.backend)

/-- Handles every message that arrives until nothing more does. Gives the kinds whose value has
changed. -/
def Connection.handleAll (connection : Connection) (now : Nat) (backend : β) :
    EventSet × Connection × β :=
  let (connection, changed, backend) :=
    connection.drain (fun connection (changed, backend) =>
      let (more, connection, backend) := connection.handle backend
      (connection, changed.union more, backend)) now (EventSet.empty, backend)
  (changed, connection, backend)

end

end MeshControl
