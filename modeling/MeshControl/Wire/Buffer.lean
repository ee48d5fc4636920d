import MeshControl.Wire.Error
/-!
A growable byte buffer with a cursor. The filled region is everything before the cursor, and
`filled` is the view under which the operations read as list operations: writing appends, `reset`
empties, growing changes nothing. The storage behind the cursor keeps whatever was written there
before, so `advance` can expose old bytes.

A buffer grows only when it must: to twice its capacity, or to exactly what is needed where that is
more. Sizes are at most `maxSize`, and no more than `maxCapacity` bytes can ever be held.
-/

namespace MeshControl

/-- The largest size that can be asked for. -/
def maxSize : Nat := 0xffffffffffffffff

/-- The largest capacity that can be had. -/
def maxCapacity : Nat := 0x7fffffffffffffff

/-- Replaces the bytes from an index on. Bytes past the end of the storage are dropped. -/
def overwrite (storage : Array UInt8) (index : Nat) : Bytes → Array UInt8
  | [] => storage
  | byte :: rest => overwrite (storage.setIfInBounds index byte) (index + 1) rest

@[simp] theorem size_overwrite (storage : Array UInt8) (index : Nat) (bytes : Bytes) :
    (overwrite storage index bytes).size = storage.size := by
  induction bytes generalizing storage index with
  | nil => rfl
  | cons byte rest ih => simp [overwrite, ih]

/-- Storage with a cursor inside it or at its end. -/
structure Buffer where
  storage : Array UInt8
  cursor : Nat
  cursor_le : cursor ≤ storage.size

namespace Buffer

/-- A buffer that holds nothing and has room for nothing. -/
def empty : Buffer := ⟨#[], 0, Nat.le_refl 0⟩

/-- The number of bytes that the buffer can hold without growing. -/
def capacity (buffer : Buffer) : Nat := buffer.storage.size

/-- The number of bytes that can be written before the buffer must grow. -/
def room (buffer : Buffer) : Nat := buffer.capacity - buffer.cursor

/-- The bytes before the cursor. -/
def filled (buffer : Buffer) : Bytes :=
  (buffer.storage.extract 0 buffer.cursor).toList

/-- The capacity that a buffer takes when it must hold `needed` bytes and cannot yet. -/
def grownCapacity (capacity needed : Nat) : Nat :=
  max (min (2 * capacity) maxSize) needed

/-- Extends the storage with zeros up to a capacity. -/
def extend : Buffer → (capacity : Nat) → Buffer
  | ⟨storage, cursor, h⟩, capacity =>
    { storage := storage ++ Array.replicate (capacity - storage.size) 0
      cursor := cursor
      cursor_le := by
        simp only [Array.size_append]
        omega }

/-- Overwrites what follows the cursor, up to the capacity, and moves the cursor past it. -/
def fill : Buffer → Bytes → Buffer
  | ⟨storage, cursor, _⟩, bytes =>
    let storage := overwrite storage cursor bytes
    ⟨storage, min (cursor + bytes.length) storage.size, Nat.min_le_right _ _⟩

/-- The number of bytes of a slice of `length` bytes at the cursor, cut off at the capacity. -/
def slice (buffer : Buffer) (length : Nat) : Nat :=
  min (buffer.cursor + length) buffer.capacity - buffer.cursor

/-- Moves the cursor forward without writing, at most to the capacity. -/
def advance (buffer : Buffer) (count : Nat) : Buffer where
  storage := buffer.storage
  cursor := min (buffer.cursor + count) buffer.storage.size
  cursor_le := Nat.min_le_right _ _

/-- Overwrites two bytes, filled or not, with a word. There is no result past the capacity. -/
def patch? (buffer : Buffer) (offset : Nat) (word : UInt16) : Option Buffer :=
  if offset + 2 ≤ buffer.capacity then
    some {
      storage := overwrite buffer.storage offset (BigEndian.digits 2 word.toNat)
      cursor := buffer.cursor
      cursor_le := by
        simp only [size_overwrite]
        exact buffer.cursor_le }
  else none

/-- Moves the cursor back to the start. The bytes and the capacity stay. -/
def reset (buffer : Buffer) : Buffer := ⟨buffer.storage, 0, Nat.zero_le _⟩

@[simp] theorem cursor_reset (buffer : Buffer) : buffer.reset.cursor = 0 := rfl

@[simp] theorem capacity_reset (buffer : Buffer) : buffer.reset.capacity = buffer.capacity := rfl

@[simp] theorem filled_reset (buffer : Buffer) : buffer.reset.filled = [] := by
  simp [filled, reset]

@[simp] theorem length_filled (buffer : Buffer) : buffer.filled.length = buffer.cursor := by
  have := buffer.cursor_le
  simp [filled]
  omega

end Buffer

/-- A step that writes to a buffer and may fail. A failed step leaves the buffer it had reached. -/
abbrev Encoder := EStateM WireError Buffer

namespace Encoder

/-- Makes room for `additional` bytes at the cursor. A failure changes nothing. -/
def reserve (additional : Nat) : Encoder Unit := fun buffer =>
  let needed := buffer.cursor + additional
  if maxSize < needed then .error (.outOfMemory maxSize) buffer
  else if needed ≤ buffer.capacity then .ok () buffer
  else
    let grown := Buffer.grownCapacity buffer.capacity needed
    if maxCapacity < grown then .error (.outOfMemory grown) buffer
    else .ok () (buffer.extend grown)

/-- Appends bytes at the cursor, growing where needed. A failure changes nothing. -/
def append (bytes : Bytes) : Encoder Unit := fun buffer =>
  match reserve bytes.length buffer with
  | .ok _ buffer => .ok () (buffer.fill bytes)
  | .error e buffer => .error e buffer

end Encoder

/-- A buffer with room for `capacity` bytes. -/
def Buffer.withCapacity (capacity : Nat) : Except WireError Buffer :=
  match Encoder.reserve capacity .empty with
  | .ok _ buffer => .ok buffer
  | .error e _ => .error e

end MeshControl
