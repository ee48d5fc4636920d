import MeshControl.Text.Hex
import MeshControl.Text.Utf8
/-!
What can go wrong while a message is written or read, as causes. The wording is in one place.
-/

namespace MeshControl

/-- The largest number of payload bytes that a length word can announce. -/
def maxPayload : Nat := 65535

inductive WireError where
  /-- A buffer of this many bytes cannot be had. -/
  | outOfMemory (requested : Nat)
  /-- A field is longer than what is left of the message. -/
  | fieldOutOfBounds (length available : Nat)
  /-- Bytes are left after the last field. -/
  | trailingBytes (count : Nat)
  /-- A message or a list is longer than sixteen bits can say. -/
  | messageTooLarge (size limit : Nat)
  /-- A text is too long for its length word, whose largest value means that there is no text. -/
  | stringTooLong (size : Nat)
  /-- A blob is too long for its length word. -/
  | bytesTooLong (size : Nat)
  | invalidUtf8 (flaw : Utf8.Flaw)
  /-- An event's kind word is not exactly one known bit. -/
  | unknownEventKind (bits : UInt32)
  /-- A mesh prefix is not eight bytes long. -/
  | invalidPrefixLength (size : Nat)
  /-- A message has a type that is not read here. -/
  | unexpectedMessageType (code : UInt16)
deriving DecidableEq, Repr

namespace WireError

def message : WireError → String
  | outOfMemory requested => s!"out of memory: could not reserve {requested} bytes"
  | fieldOutOfBounds length available =>
    s!"field length {length} exceeds available space {available}"
  | trailingBytes count => s!"{count} bytes of junk at end of message"
  | messageTooLarge size limit => s!"message too large: {size} bytes (max {limit})"
  | stringTooLong size => s!"string too long: {size} bytes"
  | bytesTooLong size => s!"data element too long: {size} bytes"
  | invalidUtf8 _ => "string field is not valid UTF-8"
  | unknownEventKind bits => "unknown event kind 0x" ++ Text.Hex.padded 8 bits.toNat
  | invalidPrefixLength size => s!"invalid mesh prefix length: {size} bytes"
  | unexpectedMessageType code => s!"unexpected message type {code.toNat}"

/-- What lies behind the failure, in words, where there is more to say. -/
def causes : WireError → List String
  | invalidUtf8 flaw => [flaw.message]
  | _ => []

end WireError

end MeshControl
