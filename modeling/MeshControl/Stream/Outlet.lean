import MeshControl.Bytes.BigEndian
import MeshControl.Stream.Fault
/-!
The sending side of a stream. It knows how the coming writes will be taken, takes every write
after those whole, and keeps a record of each write that was tried. An interrupted write is tried
again with the same bytes.
-/

namespace MeshControl

/-- How a write will be taken. -/
inductive Acceptance where
  | whole
  /-- Half of the bytes, rounded down. -/
  | half
  | atMost (count : Nat)
  | interrupted
  | failed (fault : Fault)
deriving DecidableEq, Repr

inductive WriteOutcome where
  | took (count : Nat)
  | interrupted
  | failed (fault : Fault)
deriving DecidableEq, Repr

/-- A write that was tried. -/
structure Write where
  offered : Bytes
  outcome : WriteOutcome
deriving DecidableEq, Repr

/-- The bytes that a write left in the stream, if it left any or could have. -/
def Write.taken? (write : Write) : Option Bytes :=
  match write.outcome with
  | .took count => some (write.offered.take count)
  | _ => none

/-- How coming writes will be taken, and the writes tried so far, latest first. -/
structure Outlet where
  upcoming : List Acceptance := []
  log : List Write := []
deriving DecidableEq, Repr

namespace Outlet

/-- Writes bytes, trying again while the write is interrupted. Gives the number of bytes taken. -/
def offer (bytes : Bytes) : (upcoming : List Acceptance) → (log : List Write) →
    Except Fault Nat × Outlet
  | [], log => (.ok bytes.length, ⟨[], ⟨bytes, .took bytes.length⟩ :: log⟩)
  | .whole :: later, log => (.ok bytes.length, ⟨later, ⟨bytes, .took bytes.length⟩ :: log⟩)
  | .half :: later, log =>
    (.ok (bytes.length / 2), ⟨later, ⟨bytes, .took (bytes.length / 2)⟩ :: log⟩)
  | .atMost count :: later, log =>
    (.ok (min count bytes.length), ⟨later, ⟨bytes, .took (min count bytes.length)⟩ :: log⟩)
  | .interrupted :: later, log => offer bytes later (⟨bytes, .interrupted⟩ :: log)
  | .failed fault :: later, log => (.error fault, ⟨later, ⟨bytes, .failed fault⟩ :: log⟩)

/-- Writes bytes in one piece as far as they are taken. -/
def write (outlet : Outlet) (bytes : Bytes) : Except Fault Nat × Outlet :=
  offer bytes outlet.upcoming outlet.log

/-- The bytes that each write left in the stream, in the order of the writes. -/
def taken (outlet : Outlet) : List Bytes :=
  outlet.log.reverse.filterMap Write.taken?

/-- The outlet with an empty record. -/
def forget (outlet : Outlet) : Outlet := { outlet with log := [] }

end Outlet

end MeshControl
