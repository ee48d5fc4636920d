import MeshControl.Bytes.BigEndian
/-!
The receiving side of a stream, as what arrives on it: chunks of bytes, and reads that give none.
Every read uses up part of what arrives, unless it reports that the stream would block or has
ended; `weight_read` says so with a measure.
-/

namespace MeshControl

/-- One thing that arrives on a stream. -/
inductive Arrival where
  /-- A chunk of bytes. An empty chunk reads as the end of the stream. -/
  | data (bytes : Bytes)
  /-- A read finds nothing. -/
  | wouldBlock
  | interrupted
  | failed
deriving DecidableEq, Repr

/-- How much reading an arrival can take. -/
def Arrival.weight : Arrival → Nat
  | data bytes => bytes.length + 1
  | _ => 1

/-- What arrives on a stream, and whether the stream ends after it. -/
structure Inlet where
  arrivals : List Arrival := []
  ended : Bool := false
deriving DecidableEq, Repr

inductive ReadOutcome where
  | data (bytes : Bytes)
  | ended
  | wouldBlock
  | interrupted
  | failed
deriving DecidableEq, Repr

namespace Inlet

/-- The arrivals after a chunk of which the first `count` bytes were read. -/
def afterChunk (bytes : Bytes) (count : Nat) (rest : List Arrival) : List Arrival :=
  match bytes.drop count with
  | [] => rest
  | left => .data left :: rest

/-- Reads up to `count` bytes of the next chunk. -/
def read (inlet : Inlet) (count : Nat) : ReadOutcome × Inlet :=
  match inlet.arrivals with
  | [] => (if inlet.ended then .ended else .wouldBlock, inlet)
  | .data [] :: rest => (.ended, { inlet with arrivals := rest })
  | .data bytes :: rest =>
    (.data (bytes.take count), { inlet with arrivals := afterChunk bytes count rest })
  | .wouldBlock :: rest => (.wouldBlock, { inlet with arrivals := rest })
  | .interrupted :: rest => (.interrupted, { inlet with arrivals := rest })
  | .failed :: rest => (.failed, { inlet with arrivals := rest })

/-- Adds an arrival behind the others. -/
def push (inlet : Inlet) (arrival : Arrival) : Inlet :=
  { inlet with arrivals := inlet.arrivals ++ [arrival] }

/-- Lets the stream end after what has arrived. -/
def finish (inlet : Inlet) : Inlet := { inlet with ended := true }

/-- Whether a read finds nothing, not even the end of the stream. -/
def isQuiet (inlet : Inlet) : Bool := inlet.arrivals.isEmpty && !inlet.ended

/-- The bytes that have arrived and were not read. -/
def pending (inlet : Inlet) : Bytes :=
  inlet.arrivals.flatMap fun
    | .data bytes => bytes
    | _ => []

/-- How much reading the arrivals can take. -/
def weight (inlet : Inlet) : Nat :=
  inlet.arrivals.foldr (fun arrival weight => arrival.weight + weight) 0

/-- A read that gives bytes or is interrupted uses up part of what arrives. -/
theorem weight_read {inlet rest : Inlet} {count : Nat} {outcome : ReadOutcome}
    (hcount : 0 < count) (hread : inlet.read count = (outcome, rest))
    (houtcome : outcome = .interrupted ∨ ∃ bytes, outcome = .data bytes) :
    rest.weight < inlet.weight := by
  unfold read at hread
  split at hread
  · split at hread <;> simp only [Prod.mk.injEq] at hread <;>
      obtain ⟨rfl, -⟩ := hread <;> simp at houtcome
  · simp only [Prod.mk.injEq] at hread
    obtain ⟨rfl, -⟩ := hread
    simp at houtcome
  · rename_i bytes later hne harr
    simp only [Prod.mk.injEq] at hread
    obtain ⟨-, rfl⟩ := hread
    have hpos : 0 < bytes.length := List.length_pos_iff.2 hne
    have hlen : (bytes.drop count).length = bytes.length - count := List.length_drop
    simp only [weight, harr, afterChunk]
    cases hleft : bytes.drop count with
    | nil => simp [Arrival.weight]
    | cons byte left =>
      rw [hleft] at hlen
      simp only [List.foldr_cons, Arrival.weight]
      omega
  all_goals
    rename_i later harr
    simp only [Prod.mk.injEq] at hread
    obtain ⟨-, rfl⟩ := hread
    simp [weight, harr, Arrival.weight]

end Inlet

end MeshControl
