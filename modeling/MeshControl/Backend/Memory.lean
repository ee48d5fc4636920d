import MeshControl.Backend.Basic
import MeshControl.Backend.KeyedList
/-!
A backend that keeps everything in memory. A service is known by its enterprise number and service
data, a prefix by its bytes and length.
-/

namespace MeshControl

/-- What a service is known by. -/
def Service.key (service : Service) : UInt32 × Bytes :=
  (service.enterprise, service.serviceData)

/-- What a prefix entry is known by. -/
def OnMeshPrefix.key (entry : OnMeshPrefix) : MeshPrefix × UInt8 :=
  (entry.meshPrefix, entry.length)

/-- Network data and state in memory. -/
structure MemoryBackend where
  tunnelName : Option String := none
  networkState : NetworkState := .unknown
  partition : Int32 := -1
  nodeRole : NodeRole := .unknown
  services : KeyedList Service.key := .empty
  prefixes : KeyedList OnMeshPrefix.key := .empty

namespace MemoryBackend

/-- Names the tunnel that clients are told of. -/
def withTunnelName (backend : MemoryBackend) (name : String) : MemoryBackend :=
  { backend with tunnelName := some name }

def setNetworkState (backend : MemoryBackend) (networkState : NetworkState) : MemoryBackend :=
  { backend with networkState }

def setPartition (backend : MemoryBackend) (partition : Int32) : MemoryBackend :=
  { backend with partition }

def setNodeRole (backend : MemoryBackend) (nodeRole : NodeRole) : MemoryBackend :=
  { backend with nodeRole }

/-- Publishes a service, in the place of one with the same key. -/
def addService (backend : MemoryBackend) (service : Service) : Status × MemoryBackend :=
  (.noError, { backend with services := backend.services.put service })

/-- Withdraws a service, if it is there. -/
def removeService (backend : MemoryBackend) (enterprise : UInt32) (serviceData : Bytes) :
    Status × MemoryBackend :=
  if backend.services.contains (enterprise, serviceData) then
    (.noError, { backend with services := backend.services.erase (enterprise, serviceData) })
  else (.noSuchKey, backend)

/-- Publishes a prefix, in the place of one with the same key. The lifetimes are not kept. -/
def addPrefix (backend : MemoryBackend) (entry : OnMeshPrefix) : Status × MemoryBackend :=
  (.noError, { backend with prefixes := backend.prefixes.put entry })

/-- Withdraws a prefix, if it is there. -/
def removePrefix (backend : MemoryBackend) (meshPrefix : MeshPrefix) (length : UInt8) :
    Status × MemoryBackend :=
  if backend.prefixes.contains (meshPrefix, length) then
    (.noError, { backend with prefixes := backend.prefixes.erase (meshPrefix, length) })
  else (.noSuchKey, backend)

instance : Backend MemoryBackend where
  addService := addService
  removeService := removeService
  addPrefix backend entry _ _ := addPrefix backend entry
  removePrefix := removePrefix
  tunnelName backend :=
    match backend.tunnelName with
    | some name => .ok name
    | none => .error .unknown
  networkState := networkState
  partition := partition
  nodeRole := nodeRole
  services backend := backend.services.toList
  prefixes backend := backend.prefixes.toList

end MemoryBackend

end MeshControl
