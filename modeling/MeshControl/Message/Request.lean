import MeshControl.Message.Type
import MeshControl.Wire.Frame
/-!
Requests. A mesh prefix travels as a blob of any length; whether it has eight bytes is for the
server to answer, not for the grammar. `Request.fields` is the written form behind the type code,
and `Request.decode?` reads the fields of a request type to the end of the message.
-/

namespace MeshControl

/-- The terms under which a mesh prefix is published. -/
structure PrefixTerms where
  preferredLifetime : UInt32
  validLifetime : UInt32
  meshPrefix : Bytes
  length : UInt8
  slaac : Bool
  onMesh : Bool
  stable : Bool
deriving DecidableEq

inductive Request where
  | addService (enterprise : UInt32) (serviceData serverData : Bytes)
  | removeService (enterprise : UInt32) (serviceData : Bytes)
  | addPrefix (terms : PrefixTerms)
  | removePrefix (meshPrefix : Bytes) (length : UInt8)
  | getTunnelName
  | subscribe (kind : EventKind)
deriving DecidableEq

def PrefixTerms.fields (terms : PrefixTerms) : List Field :=
  [.u32 terms.preferredLifetime, .u32 terms.validLifetime, .blob terms.meshPrefix,
    .u8 terms.length, .bool terms.slaac, .bool terms.onMesh, .bool terms.stable]

def PrefixTerms.decode : Decoder PrefixTerms := do
  let preferredLifetime ← Decoder.u32
  let validLifetime ← Decoder.u32
  let meshPrefix ← Decoder.blob
  let length ← Decoder.u8
  let slaac ← Decoder.bool
  let onMesh ← Decoder.bool
  let stable ← Decoder.bool
  return { preferredLifetime, validLifetime, meshPrefix, length, slaac, onMesh, stable }

namespace Request

def type : Request → MessageType
  | addService .. => .addService
  | removeService .. => .removeService
  | addPrefix _ => .addPrefix
  | removePrefix .. => .removePrefix
  | getTunnelName => .getTunnelName
  | subscribe kind => kind.requestType

/-- The fields of a request behind the type code. -/
def fields : Request → List Field
  | addService enterprise serviceData serverData =>
    [.u32 enterprise, .blob serviceData, .blob serverData]
  | removeService enterprise serviceData => [.u32 enterprise, .blob serviceData]
  | addPrefix terms => terms.fields
  | removePrefix meshPrefix length => [.blob meshPrefix, .u8 length]
  | getTunnelName => []
  | subscribe _ => []

/-- The room that is reserved for the fields of any request. -/
def space : Nat := 32

def encode (request : Request) : Encoder Bytes :=
  Frame.build request.type space request.fields

/-- Reads the fields of a request type, or `none` for a type that is no request. -/
def decodeFields? : MessageType → Option (Decoder Request)
  | .addService => some do
    let enterprise ← Decoder.u32
    let serviceData ← Decoder.blob
    let serverData ← Decoder.blob
    return addService enterprise serviceData serverData
  | .removeService => some do
    let enterprise ← Decoder.u32
    let serviceData ← Decoder.blob
    return removeService enterprise serviceData
  | .addPrefix => some (addPrefix <$> PrefixTerms.decode)
  | .removePrefix => some do
    let meshPrefix ← Decoder.blob
    let length ← Decoder.u8
    return removePrefix meshPrefix length
  | .getTunnelName => some (return getTunnelName)
  | .requestStateEvents => some (return subscribe .state)
  | .requestPartitionEvents => some (return subscribe .partition)
  | .requestRoleEvents => some (return subscribe .role)
  | .requestServiceEvents => some (return subscribe .service)
  | .requestPrefixEvents => some (return subscribe .onMeshPrefix)
  | _ => none

/-- Reads the fields of a request type and requires that they end the message. -/
def decode? (type : MessageType) : Option (Decoder Request) :=
  (decodeFields? type).map fun fields => do
    let request ← fields
    Decoder.finish
    return request

end Request

end MeshControl
