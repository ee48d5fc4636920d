import MeshControl.Wire.Buffer
import MeshControl.Wire.Reader
/-!
The fields that message bodies are made of. A body is a list of fields; writing it appends the
fields in order, and `FieldType.read` reads back one field of a type. Numbers are written most
significant byte first, a signed word as the unsigned word of the same bits. Blobs and texts stand
behind a sixteen-bit length; the length 65535 of a text means that there is none.
-/

namespace MeshControl

inductive Field where
  | u8 (value : UInt8)
  | u16 (value : UInt16)
  | u32 (value : UInt32)
  | i32 (value : Int32)
  | bool (value : Bool)
  | blob (value : Bytes)
  | text (value : Option String)
  /-- The number of entries of a list that follows. -/
  | count (value : Nat)
deriving DecidableEq

namespace Field

/-- The pieces that a field is written in. A field that its length word cannot describe has none. -/
def pieces : Field → Except WireError (List Bytes)
  | u8 value => .ok [[value]]
  | u16 value => .ok [BigEndian.digits 2 value.toNat]
  | u32 value => .ok [BigEndian.digits 4 value.toNat]
  | i32 value => .ok [BigEndian.digits 4 value.toUInt32.toNat]
  | bool value => .ok [[if value then 1 else 0]]
  | blob value =>
    let size := value.length
    if size ≤ 65535 then .ok [BigEndian.digits 2 size, value] else .error (.bytesTooLong size)
  | text none => .ok [BigEndian.digits 2 65535]
  | text (some value) =>
    let bytes := Utf8.write value
    let size := bytes.length
    if size < 65535 then .ok [BigEndian.digits 2 size, bytes] else .error (.stringTooLong size)
  | count value =>
    if value ≤ 65535 then .ok [BigEndian.digits 2 value]
    else .error (.messageTooLarge value maxPayload)

/-- The bytes of a field that can be written. -/
def bytes? (field : Field) : Option Bytes :=
  match field.pieces with
  | .ok pieces => some pieces.flatten
  | .error _ => none

/-- Appends a field. A field that cannot be written changes nothing. -/
def put (field : Field) : Encoder Unit :=
  match field.pieces with
  | .ok pieces => pieces.forM Encoder.append
  | .error e => throw e

/-- Appends fields in order, up to the first that cannot be written. -/
def putAll (fields : List Field) : Encoder Unit :=
  fields.forM put

end Field

/-- The types that fields are read as. -/
inductive FieldType where
  | u8 | u16 | u32 | i32 | bool | blob | text
deriving DecidableEq, Repr

namespace FieldType

def read : FieldType → Decoder Field
  | u8 => Field.u8 <$> Decoder.u8
  | u16 => Field.u16 <$> Decoder.u16
  | u32 => Field.u32 <$> Decoder.u32
  | i32 => Field.i32 <$> Decoder.i32
  | bool => Field.bool <$> Decoder.bool
  | blob => Field.blob <$> Decoder.blob
  | text => Field.text <$> Decoder.text

end FieldType

/-- The type that a field is read back as. A list's length reads as a sixteen-bit word. -/
def Field.type : Field → FieldType
  | .u8 _ => .u8
  | .u16 _ => .u16
  | .u32 _ => .u32
  | .i32 _ => .i32
  | .bool _ => .bool
  | .blob _ => .blob
  | .text _ => .text
  | .count _ => .u16

end MeshControl
