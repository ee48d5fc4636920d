import MeshControl.Message.EventKind
import MeshControl.Message.MeshPrefix
import MeshControl.Wire.Field
/-!
Events: the current value of one kind of network state, as it is pushed to subscribers. `fields` is
the written form of an event behind the type code, `Event.decode` reads one, and `Event.size` is the
number of bytes of the written form.
-/

namespace MeshControl

inductive NetworkState where
  | uninitialized
  | fault
  | upgrading
  | deepSleep
  | offline
  | commissioned
  | associating
  | credentialsNeeded
  | associated
  | isolated
  | unknown
deriving DecidableEq, Repr

namespace NetworkState

/-- Every state, in the order of their codes. -/
def all : List NetworkState :=
  [uninitialized, fault, upgrading, deepSleep, offline, commissioned, associating,
    credentialsNeeded, associated, isolated, unknown]

def code : NetworkState → UInt32
  | uninitialized => 0
  | fault => 1
  | upgrading => 2
  | deepSleep => 3
  | offline => 4
  | commissioned => 5
  | associating => 6
  | credentialsNeeded => 7
  | associated => 8
  | isolated => 9
  | unknown => 10

/-- The state of a code. A code that names none is unknown. -/
def ofCode (code : UInt32) : NetworkState :=
  (all.find? (·.code = code)).getD unknown

@[simp] theorem ofCode_code (state : NetworkState) : ofCode state.code = state := by
  cases state <;> rfl

def name : NetworkState → String
  | uninitialized => "Uninitialized"
  | fault => "Fault"
  | upgrading => "Upgrading"
  | deepSleep => "DeepSleep"
  | offline => "Offline"
  | commissioned => "Commissioned"
  | associating => "Associating"
  | credentialsNeeded => "CredentialsNeeded"
  | associated => "Associated"
  | isolated => "Isolated"
  | unknown => "Unknown"

end NetworkState

/-- The role of this node in the network. -/
inductive NodeRole where
  | unknown
  | router
  | endDevice
  | sleepyEndDevice
  | nest
  | commissioner
  | leader
deriving DecidableEq, Repr

namespace NodeRole

/-- Every role, in the order of their codes. -/
def all : List NodeRole :=
  [unknown, router, endDevice, sleepyEndDevice, nest, commissioner, leader]

def code : NodeRole → UInt32
  | unknown => 0
  | router => 1
  | endDevice => 2
  | sleepyEndDevice => 3
  | nest => 4
  | commissioner => 5
  | leader => 6

/-- The role of a code. A code that names none is unknown. -/
def ofCode (code : UInt32) : NodeRole :=
  (all.find? (·.code = code)).getD unknown

@[simp] theorem ofCode_code (role : NodeRole) : ofCode role.code = role := by
  cases role <;> rfl

def name : NodeRole → String
  | unknown => "Unknown"
  | router => "Router"
  | endDevice => "EndDevice"
  | sleepyEndDevice => "SleepyEndDevice"
  | nest => "Nest"
  | commissioner => "Commissioner"
  | leader => "Leader"

end NodeRole

structure Service where
  enterprise : UInt32
  serviceData : Bytes
  serverData : Bytes
deriving DecidableEq

/-- The current value of one kind of network state. -/
inductive Event where
  | state (value : NetworkState)
  /-- The partition's number, -1 while it is unknown. -/
  | partition (value : Int32)
  | role (value : NodeRole)
  | services (entries : List Service)
  | prefixes (entries : List OnMeshPrefix)
deriving DecidableEq

def Service.fields (service : Service) : List Field :=
  [.u32 service.enterprise, .blob service.serviceData, .blob service.serverData]

def Service.size (service : Service) : Nat :=
  8 + service.serviceData.length + service.serverData.length

def Service.decode : Decoder Service := do
  let enterprise ← Decoder.u32
  let serviceData ← Decoder.blob
  let serverData ← Decoder.blob
  return { enterprise, serviceData, serverData }

def OnMeshPrefix.fields (entry : OnMeshPrefix) : List Field :=
  [.blob entry.meshPrefix.bytes, .u8 entry.length, .bool entry.slaac, .bool entry.onMesh,
    .bool entry.stable]

def OnMeshPrefix.decode : Decoder OnMeshPrefix := do
  let bytes ← Decoder.blob
  match MeshPrefix.ofBytes? bytes with
  | none => throw (.invalidPrefixLength bytes.length)
  | some meshPrefix =>
    let length ← Decoder.u8
    let slaac ← Decoder.bool
    let onMesh ← Decoder.bool
    let stable ← Decoder.bool
    return { meshPrefix, length, slaac, onMesh, stable }

namespace Event

def kind : Event → EventKind
  | state _ => .state
  | partition _ => .partition
  | role _ => .role
  | services _ => .service
  | prefixes _ => .onMeshPrefix

def valueFields : Event → List Field
  | state value => [.u32 value.code]
  | partition value => [.i32 value]
  | role value => [.u32 value.code]
  | services entries => .count entries.length :: entries.flatMap Service.fields
  | prefixes entries => .count entries.length :: entries.flatMap OnMeshPrefix.fields

/-- The fields of an event behind the type code: the bit of its kind and its value. -/
def fields (event : Event) : List Field :=
  .u32 event.kind.bit :: event.valueFields

/-- The number of bytes of an event behind the type code. -/
def size : Event → Nat
  | services entries => 6 + entries.foldr (fun entry rest => entry.size + rest) 0
  | prefixes entries => 6 + entries.length * 14
  | _ => 8

def decodeValue : EventKind → Decoder Event
  | .state => (state ∘ NetworkState.ofCode) <$> Decoder.u32
  | .partition => partition <$> Decoder.i32
  | .role => (role ∘ NodeRole.ofCode) <$> Decoder.u32
  | .service => do
    let count ← Decoder.u16
    services <$> Decoder.times Service.decode count.toNat
  | .onMeshPrefix => do
    let count ← Decoder.u16
    prefixes <$> Decoder.times OnMeshPrefix.decode count.toNat

/-- Reads an event behind its type code. -/
def decode : Decoder Event := do
  let bits ← Decoder.u32
  match EventKind.ofBit? bits with
  | none => throw (.unknownEventKind bits)
  | some kind => decodeValue kind

end Event

end MeshControl
