import MeshControl.Wire.Error
/-!
Reading fields out of one message. A reader is a position and the bytes from there on, and a
`Decoder` moves it. A decoder that fails still leaves a reader: a field whose length word was read
and whose body is missing has consumed the length word, while a plain field that does not fit has
consumed nothing.
-/

namespace MeshControl

/-- A position in a message and the bytes from there on. -/
structure Reader where
  position : Nat
  rest : Bytes
deriving DecidableEq, Repr

namespace Reader

/-- Reading from a position, or from the end where the position lies behind it. -/
def resume (message : Bytes) (position : Nat) : Reader :=
  ⟨min position message.length, message.drop position⟩

def start (message : Bytes) : Reader := ⟨0, message⟩

def remaining (reader : Reader) : Nat := reader.rest.length

/-- What is left can be taken for a view of the message from the position on. -/
theorem resume_eq (message : Bytes) {position : Nat} (h : position ≤ message.length) :
    Reader.resume message position = ⟨position, message.drop position⟩ := by
  simp [Reader.resume, Nat.min_eq_left h]

end Reader

/-- A step that reads from a message and may fail, moving the reader either way. -/
abbrev Decoder := EStateM WireError Reader

namespace Decoder

def take (length : Nat) : Decoder Bytes := fun reader =>
  let field := reader.rest.take length
  if field.length = length then
    .ok field ⟨reader.position + length, reader.rest.drop length⟩
  else .error (.fieldOutOfBounds length reader.rest.length) reader

def number (width : Nat) : Decoder Nat :=
  BigEndian.value <$> take width

def u8 : Decoder UInt8 := UInt8.ofNat <$> number 1

def u16 : Decoder UInt16 := UInt16.ofNat <$> number 2

def u32 : Decoder UInt32 := UInt32.ofNat <$> number 4

/-- Reads a signed word, which travels as the unsigned word of the same bits. -/
def i32 : Decoder Int32 := Int32.ofUInt32 <$> u32

/-- Reads a truth value: every byte but zero is true. -/
def bool : Decoder Bool := (· != 0) <$> u8

/-- Reads a blob behind its sixteen-bit length. -/
def blob : Decoder Bytes := do
  let length ← u16
  take length.toNat

/-- The length word that stands for the absence of a text. -/
def nullLength : UInt16 := 0xffff

/-- Reads a text behind its length in bytes, or the mark of an absent text. -/
def text : Decoder (Option String) := do
  let length ← u16
  if length = nullLength then
    return none
  let bytes ← take length.toNat
  match Utf8.read bytes with
  | .ok text => return some text
  | .error flaw => throw (.invalidUtf8 flaw)

/-- Requires that nothing is left. -/
def finish : Decoder Unit := fun reader =>
  match reader.rest with
  | [] => .ok () reader
  | _ :: _ => .error (.trailingBytes reader.remaining) reader

/-- Repeats a step, collecting the results in order. -/
def times {α : Type} (step : Decoder α) : Nat → Decoder (List α)
  | 0 => return []
  | n + 1 => do
    let head ← step
    let tail ← times step n
    return head :: tail

end Decoder

end MeshControl
