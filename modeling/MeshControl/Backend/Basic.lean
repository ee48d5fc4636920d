import MeshControl.Message.Event
import MeshControl.Message.Status
/-!
What a server needs from the network stack behind it: changes to the network data, each answered
with a status, and questions for the current values.
-/

namespace MeshControl

/-- The network stack behind a server. -/
class Backend (β : Type) where
  /-- Publishes a service. -/
  addService : β → Service → Status × β
  /-- Withdraws the service of an enterprise with the given service data. -/
  removeService : β → UInt32 → Bytes → Status × β
  /-- Publishes a prefix with its preferred and its valid lifetime in seconds. -/
  addPrefix : β → OnMeshPrefix → UInt32 → UInt32 → Status × β
  /-- Withdraws a prefix of a length. -/
  removePrefix : β → MeshPrefix → UInt8 → Status × β
  /-- The name of the tunnel, or the status that says why there is none. -/
  tunnelName : β → Except Status String
  networkState : β → NetworkState
  partition : β → Int32
  nodeRole : β → NodeRole
  services : β → List Service
  prefixes : β → List OnMeshPrefix

/-- The event that carries the current value of a kind. -/
def Backend.currentEvent {β : Type} [Backend β] (backend : β) : EventKind → Event
  | .state => .state (networkState backend)
  | .partition => .partition (partition backend)
  | .role => .role (nodeRole backend)
  | .service => .services (services backend)
  | .onMeshPrefix => .prefixes (prefixes backend)

@[simp] theorem Backend.kind_currentEvent {β : Type} [Backend β] (backend : β)
    (kind : EventKind) : (currentEvent backend kind).kind = kind := by
  cases kind <;> rfl

end MeshControl
