import MeshControl.Message.Type
import MeshControl.Wire.Field
/-!
Messages in frames: a sixteen-bit count of the bytes that follow, a type code, and the fields of
the body. A frame is built in a buffer with two zero bytes in the place of the count, which are
replaced when the body is complete.
-/

namespace MeshControl

namespace Frame

/-- The number of bytes of the count in front of a frame. -/
def lengthSize : Nat := 2

/-- The number of bytes in front of the fields. -/
def headerSize : Nat := 4

/-- Starts a message of a type, with room for `space` bytes of fields. What the buffer held before
is gone, except for its capacity. -/
def start (type : MessageType) (space : Nat) : Encoder Unit := do
  modify Buffer.reset
  Encoder.reserve (min (space + headerSize) maxSize)
  Encoder.append [0, 0]
  Field.put (.u16 type.code)

/-- Puts the count in its place and gives the whole frame. -/
def finish : Encoder Bytes := fun buffer =>
  let size := buffer.cursor - lengthSize
  if maxPayload < size then .error (.messageTooLarge size maxPayload) buffer
  else
    match buffer.patch? 0 (UInt16.ofNat size) with
    | some buffer => .ok buffer.filled buffer
    | none => .error (.messageTooLarge size maxPayload) buffer

def build (type : MessageType) (space : Nat) (fields : List Field) : Encoder Bytes := do
  start type space
  Field.putAll fields
  finish

end Frame

end MeshControl
