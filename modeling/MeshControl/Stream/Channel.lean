import MeshControl.Bytes.BigEndian
import MeshControl.Stream.Fault
/-!
A client's end of a stream. A read takes exactly as many bytes as it asks for. One that cannot
uses up what there is: a message that had come only in part is lost with it.
-/

namespace MeshControl

/-- A client's end of a stream. -/
structure Channel where
  /-- The bytes that have arrived and were not read. -/
  incoming : Bytes := []
  /-- Whether nothing more will arrive. -/
  ended : Bool := false
  /-- Whether somebody reads what is written. -/
  isHeard : Bool := true
  sent : Bytes := []
deriving DecidableEq, Repr

/-- Why a read did not get all its bytes. -/
inductive Shortage where
  | ended
  | late
deriving DecidableEq, Repr

namespace Channel

def read (channel : Channel) (count : Nat) : Except Shortage Bytes × Channel :=
  if count ≤ channel.incoming.length then
    (.ok (channel.incoming.take count),
      { channel with incoming := channel.incoming.drop count })
  else
    (.error (if channel.ended then .ended else .late), { channel with incoming := [] })

/-- Writes bytes, if somebody reads them. -/
def write (channel : Channel) (bytes : Bytes) : Except SystemFault Unit × Channel :=
  if channel.isHeard then (.ok (), { channel with sent := channel.sent ++ bytes })
  else (.error .brokenPipe, channel)

/-- Lets bytes arrive, unless the stream has ended. -/
def deliver (channel : Channel) (bytes : Bytes) : Channel :=
  if channel.ended then channel else { channel with incoming := channel.incoming ++ bytes }

/-- Lets the stream end after what has arrived. -/
def finish (channel : Channel) : Channel := { channel with ended := true }

/-- Gives up the other end. What has arrived can still be read. -/
def drop (channel : Channel) : Channel := { channel with ended := true, isHeard := false }

/-- A read that gets its bytes takes them away. -/
theorem length_read {channel rest : Channel} {count : Nat} {bytes : Bytes}
    (h : channel.read count = (.ok bytes, rest)) :
    rest.incoming.length + count = channel.incoming.length := by
  unfold read at h
  split at h <;> simp only [Prod.mk.injEq] at h
  · obtain ⟨-, rfl⟩ := h
    simp only [List.length_drop]
    omega
  · simp at h

end Channel

end MeshControl
