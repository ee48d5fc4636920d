import MeshControl.Backend.Basic

/-!
A backend that keeps a record of the changes that it is asked for and hands each on to the backend
behind it. Statements about which changes a server asks for are statements about this record.
-/

namespace MeshControl

/-- A change that a backend is asked for. -/
inductive BackendCall where
  | addService (service : Service)
  | removeService (enterprise : UInt32) (serviceData : Bytes)
  | addPrefix (entry : OnMeshPrefix) (preferredLifetime validLifetime : UInt32)
  | removePrefix (meshPrefix : MeshPrefix) (length : UInt8)
deriving DecidableEq

/-- A backend and the changes that it was asked for, in order. -/
structure Recorded (β : Type) where
  backend : β
  calls : List BackendCall := []

namespace Recorded

variable {β : Type}

/-- Records a call and hands it on. -/
def call (recorded : Recorded β) (entry : BackendCall) (operation : β → Status × β) :
    Status × Recorded β :=
  let (status, backend) := operation recorded.backend
  (status, { backend, calls := recorded.calls ++ [entry] })

variable [Backend β]

instance : Backend (Recorded β) where
  addService recorded service :=
    recorded.call (.addService service) (Backend.addService · service)
  removeService recorded enterprise serviceData :=
    recorded.call (.removeService enterprise serviceData)
      (Backend.removeService · enterprise serviceData)
  addPrefix recorded entry preferred valid :=
    recorded.call (.addPrefix entry preferred valid) (Backend.addPrefix · entry preferred valid)
  removePrefix recorded meshPrefix length :=
    recorded.call (.removePrefix meshPrefix length) (Backend.removePrefix · meshPrefix length)
  tunnelName recorded := Backend.tunnelName recorded.backend
  networkState recorded := Backend.networkState recorded.backend
  partition recorded := Backend.partition recorded.backend
  nodeRole recorded := Backend.nodeRole recorded.backend
  services recorded := Backend.services recorded.backend
  prefixes recorded := Backend.prefixes recorded.backend

end Recorded

end MeshControl
