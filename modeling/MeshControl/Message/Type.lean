import MeshControl.Message.EventKind
/-!
The sixteen-bit type code that begins every message.
-/

namespace MeshControl

inductive MessageType where
  | invalid
  /-- A status, with the type of the request that it answers. -/
  | response
  | addService
  | removeService
  | addPrefix
  | removePrefix
  | getTunnelName
  | tunnelNameResponse
  /-- A pushed notification. -/
  | event
  | requestStateEvents
  | requestPartitionEvents
  | requestRoleEvents
  | requestServiceEvents
  | requestPrefixEvents
deriving DecidableEq, Repr

namespace MessageType

/-- Every type, in the order of their codes. -/
def all : List MessageType :=
  [invalid, response, addService, removeService, addPrefix, removePrefix, getTunnelName,
    tunnelNameResponse, event, requestStateEvents, requestPartitionEvents, requestRoleEvents,
    requestServiceEvents, requestPrefixEvents]

def code : MessageType → UInt16
  | invalid => 0
  | response => 1
  | addService => 2
  | removeService => 3
  | addPrefix => 4
  | removePrefix => 5
  | getTunnelName => 6
  | tunnelNameResponse => 7
  | event => 8
  | requestStateEvents => 9
  | requestPartitionEvents => 10
  | requestRoleEvents => 11
  | requestServiceEvents => 12
  | requestPrefixEvents => 13

def ofCode? (code : UInt16) : Option MessageType :=
  all.find? (·.code = code)

@[simp] theorem ofCode?_code (type : MessageType) : ofCode? type.code = some type := by
  cases type <;> rfl

/-- A type that a code stands for has that code. -/
theorem code_of_ofCode? {code : UInt16} {type : MessageType} (h : ofCode? code = some type) :
    type.code = code := by
  simpa using List.find?_some h

theorem code_injective {first second : MessageType} (h : first.code = second.code) :
    first = second := by
  rw [← Option.some.injEq, ← ofCode?_code, h, ofCode?_code]

/-- The kind of events that a request of this type subscribes to. -/
def subscription? : MessageType → Option EventKind
  | requestStateEvents => some .state
  | requestPartitionEvents => some .partition
  | requestRoleEvents => some .role
  | requestServiceEvents => some .service
  | requestPrefixEvents => some .onMeshPrefix
  | _ => none

def name : MessageType → String
  | invalid => "Invalid"
  | response => "Response"
  | addService => "AddService"
  | removeService => "RemoveService"
  | addPrefix => "AddPrefix"
  | removePrefix => "RemovePrefix"
  | getTunnelName => "GetTunnelName"
  | tunnelNameResponse => "TunnelNameResponse"
  | event => "Event"
  | requestStateEvents => "RequestStateEvents"
  | requestPartitionEvents => "RequestPartitionEvents"
  | requestRoleEvents => "RequestRoleEvents"
  | requestServiceEvents => "RequestServiceEvents"
  | requestPrefixEvents => "RequestPrefixEvents"

end MessageType

/-- The type of the request that subscribes to a kind of events. -/
def EventKind.requestType : EventKind → MessageType
  | .state => .requestStateEvents
  | .partition => .requestPartitionEvents
  | .role => .requestRoleEvents
  | .service => .requestServiceEvents
  | .onMeshPrefix => .requestPrefixEvents

@[simp] theorem EventKind.subscription?_requestType (kind : EventKind) :
    kind.requestType.subscription? = some kind := by
  cases kind <;> rfl

end MeshControl
