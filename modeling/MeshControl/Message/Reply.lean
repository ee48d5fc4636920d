import MeshControl.Message.Event
import MeshControl.Message.Status
import MeshControl.Message.Type
import MeshControl.Text.Quoted
import MeshControl.Wire.Frame
/-!
What a server sends: replies, which answer one request each, and events. A reply is the status of a
request or the answer to the question for the tunnel's name, and repeats the type code of its
request. `ServerMessage.fields` is the written form behind the type code, and `ServerMessage.decode`
reads a whole message body.
-/

namespace MeshControl

/-- The answer to the request whose type code is given. -/
inductive Reply where
  | response (requestCode : UInt16) (status : Status)
  /-- The name of the tunnel, or its absence. -/
  | tunnelName (requestCode : UInt16) (status : Status) (name : Option String)
deriving DecidableEq

inductive ServerMessage where
  | reply (reply : Reply)
  | event (event : Event)
deriving DecidableEq

namespace Reply

def type : Reply → MessageType
  | response .. => .response
  | tunnelName .. => .tunnelNameResponse

/-- The type code of the request that a reply answers. -/
def requestCode : Reply → UInt16
  | response code _ => code
  | tunnelName code _ _ => code

/-- The fields of a reply behind its type code. -/
def fields : Reply → List Field
  | response code status => [.u16 code, .i32 status.code]
  | tunnelName code status name => [.u16 code, .i32 status.code, .text name]

/-- The number of bytes of a reply behind its type code. -/
def size : Reply → Nat
  | response .. => 6
  | tunnelName _ _ name => 8 + (name.map String.utf8ByteSize).getD 0

/-- The name of the message type that a code stands for, if it stands for one. -/
def codeText (code : UInt16) : String :=
  match MessageType.ofCode? code with
  | some type => s!"Some({type.name})"
  | none => "None"

/-- The name of the tunnel between quotes, if there is one. -/
def nameText : Option String → String
  | some name => s!"Some({Text.quoted name})"
  | none => "None"

/-- A reply in words, for the report that another message was expected. -/
def text : Reply → String
  | response code status => s!"Response to {codeText code} ({status.text})"
  | tunnelName code status name =>
    s!"TunnelName \x7b request_type: {code.toNat}, status: {status.name}, " ++
      s!"name: {nameText name} \x7d"

end Reply

namespace ServerMessage

def type : ServerMessage → MessageType
  | reply answer => answer.type
  | event _ => .event

/-- The fields of a message behind the type code. -/
def fields : ServerMessage → List Field
  | reply answer => answer.fields
  | event value => value.fields

/-- The number of bytes of a message behind its type code. -/
def size : ServerMessage → Nat
  | reply answer => answer.size
  | event value => value.size

def encode (message : ServerMessage) : Encoder Bytes :=
  Frame.build message.type message.size message.fields

/-- Reads the fields of the message type that a code stands for. -/
def decodeFields (code : UInt16) : Decoder ServerMessage :=
  match MessageType.ofCode? code with
  | some .response => do
    let requestCode ← Decoder.u16
    let status ← Decoder.i32
    return reply (.response requestCode (Status.ofCode status))
  | some .tunnelNameResponse => do
    let requestCode ← Decoder.u16
    let status ← Decoder.i32
    let name ← Decoder.text
    return reply (.tunnelName requestCode (Status.ofCode status) name)
  | some .event => event <$> Event.decode
  | _ => throw (.unexpectedMessageType code)

def decoder : Decoder ServerMessage := do
  let code ← Decoder.u16
  let message ← decodeFields code
  Decoder.finish
  return message

/-- The message that a body spells. -/
def decode (body : Bytes) : Except WireError ServerMessage :=
  match decoder (Reader.start body) with
  | .ok message _ => .ok message
  | .error e _ => .error e

end ServerMessage

end MeshControl
