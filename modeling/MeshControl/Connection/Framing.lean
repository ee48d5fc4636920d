import MeshControl.Connection.Basic
/-!
Cutting what arrives into messages. A connection collects the two bytes of a length, then as many
bytes as the length says, and hands the body to its callback; then it waits for the next length.
Bytes may arrive in any pieces.

Reading is the drain's own: a callback may do anything to the connection but does not change what
is still to arrive. Hence a drain ends: `effort` falls with every step.
-/

namespace MeshControl

/-- The outcome of one attempt to complete a phase. -/
inductive Fill where
  /-- All the bytes that the phase needs are there. -/
  | complete
  /-- More may be read at once. -/
  | again
  /-- Nothing more can be read for now, or ever. -/
  | stop
deriving DecidableEq, Repr

namespace Phase

/-- How many phases can end in a row without a read, from this one on. -/
def rank : Phase → Nat
  | header => 2
  | body _ => 1

end Phase

namespace Connection

/-- The number of bytes that the phase still lacks. -/
def lacking (connection : Connection) : Nat :=
  connection.phase.expected - connection.input.cursor

/-- The connection after a read at a time. -/
def received (connection : Connection) (now : Nat) (bytes : Bytes) : Connection :=
  { connection with input := connection.input.fill bytes, lastActivity := now }

/-- What a read that lacked `lacking` bytes comes to. Bytes are kept, the end of the stream and a
failed read close the connection, an interrupted read is tried again. -/
def afterRead (connection : Connection) (now lacking : Nat) : ReadOutcome → Fill × Connection
  | .data bytes =>
    (if bytes.length < lacking then .again else .complete, connection.received now bytes)
  | .interrupted => (.again, connection)
  | .wouldBlock => (.stop, connection)
  | .ended => (.stop, connection.close)
  | .failed => (.stop, connection.close)

/-- Reads once towards the end of the phase, if it lacks bytes. Without room for them the
connection is closed. -/
def fill (connection : Connection) (now : Nat) : Fill × Connection :=
  let lacking := connection.lacking
  if lacking = 0 then (.complete, connection)
  else
    match Encoder.reserve lacking connection.input with
    | .error _ input => (.stop, { connection with input }.close)
    | .ok _ input =>
      let (outcome, inlet) := connection.inlet.read lacking
      { connection with input, inlet }.afterRead now lacking outcome

/-- The length that the first two bytes of the input tell. -/
def announcedLength (connection : Connection) : UInt16 :=
  UInt16.ofNat (BigEndian.value (connection.input.filled.take 2))

/-- Turns from a length to the body that it announces. -/
def enterBody (connection : Connection) : Connection :=
  { connection with
    phase := .body connection.announcedLength
    input := connection.input.reset }

/-- Turns from a handled message to the next length, with what was still to arrive. -/
def leaveBody (connection : Connection) (inlet : Inlet) : Connection :=
  { connection with phase := .header, input := connection.input.reset, inlet }

/-- What a drain has still to do at most: to read what arrives, and to end phases. -/
def effort (connection : Connection) : Nat :=
  3 * connection.inlet.weight + if connection.lacking = 0 then connection.phase.rank else 0

theorem rank_le (phase : Phase) : phase.rank ≤ 2 := by
  cases phase <;> simp [Phase.rank]

theorem effort_le (connection : Connection) :
    connection.effort ≤ 3 * connection.inlet.weight + 2 := by
  have := rank_le connection.phase
  unfold effort
  split <;> omega

/-- A fill that does not stop leaves the connection as it was, with a complete phase, or has used
up part of what arrives. -/
theorem fill_progress {connection next : Connection} {now : Nat} {outcome : Fill}
    (hfill : connection.fill now = (outcome, next)) (hgo : outcome ≠ .stop) :
    (connection.lacking = 0 ∧ outcome = .complete ∧ next = connection) ∨
      next.inlet.weight < connection.inlet.weight := by
  unfold fill at hfill
  by_cases hlack : connection.lacking = 0
  · simp only [hlack, if_true, Prod.mk.injEq] at hfill
    exact .inl ⟨hlack, hfill.1.symm, hfill.2.symm⟩
  · refine .inr ?_
    simp only [hlack, if_false] at hfill
    split at hfill
    · simp only [Prod.mk.injEq] at hfill
      exact absurd hfill.1.symm hgo
    · cases hread : connection.inlet.read connection.lacking with
      | mk readOutcome inlet =>
        simp only [hread] at hfill
        have hlt := Inlet.weight_read (Nat.pos_of_ne_zero hlack) hread
        cases readOutcome with
        | data bytes =>
          simp only [afterRead, Prod.mk.injEq] at hfill
          obtain ⟨-, rfl⟩ := hfill
          exact hlt (.inr ⟨bytes, rfl⟩)
        | interrupted =>
          simp only [afterRead, Prod.mk.injEq] at hfill
          obtain ⟨-, rfl⟩ := hfill
          exact hlt (.inl rfl)
        | ended | wouldBlock | failed =>
          simp only [afterRead, Prod.mk.injEq] at hfill
          exact absurd hfill.1.symm hgo

/-- A fill that is to be tried again has used up effort. -/
theorem effort_of_again {connection next : Connection} {now : Nat}
    (hfill : connection.fill now = (.again, next)) : next.effort < connection.effort := by
  rcases fill_progress hfill (by simp) with h | h
  · simp at h
  · have := effort_le next
    unfold effort at this ⊢
    omega

/-- Turning to a body uses up effort. -/
theorem effort_enterBody {connection next : Connection} {now : Nat}
    (hfill : connection.fill now = (.complete, next)) (hphase : next.phase = .header) :
    next.enterBody.effort < connection.effort := by
  have hbody : next.enterBody.effort ≤ 3 * next.inlet.weight + 1 := by
    unfold effort
    split <;> simp [enterBody, Phase.rank]
  rcases fill_progress hfill (by simp) with ⟨hlack, -, rfl⟩ | h
  · have hhere : next.effort = 3 * next.inlet.weight + 2 := by
      simp [effort, hlack, hphase, Phase.rank]
    omega
  · have : 3 * connection.inlet.weight ≤ connection.effort := by
      unfold effort
      omega
    omega

/-- Turning to the next length uses up effort, whatever the callback did. -/
theorem effort_leaveBody {connection next : Connection} {now : Nat} {length : UInt16}
    (handled : Connection)
    (hfill : connection.fill now = (.complete, next)) (hphase : next.phase = .body length) :
    (handled.leaveBody next.inlet).effort < connection.effort := by
  have hleave : (handled.leaveBody next.inlet).effort = 3 * next.inlet.weight := by
    simp [effort, leaveBody, lacking, Phase.expected]
  rcases fill_progress hfill (by simp) with ⟨hlack, -, rfl⟩ | h
  · have hhere : next.effort = 3 * next.inlet.weight + 1 := by
      simp [effort, hlack, hphase, Phase.rank]
    omega
  · have : 3 * connection.inlet.weight ≤ connection.effort := by
      unfold effort
      omega
    omega

/-- Reads until nothing more arrives or the connection is closed, and runs the callback once on
each complete message with its body ready to be read. -/
def drain {σ : Type} (onMessage : Connection → σ → Connection × σ) (now : Nat)
    (connection : Connection) (state : σ) : Connection × σ :=
  if connection.isOpen then
    match hfill : connection.fill now with
    | (.stop, next) => (next, state)
    | (.again, next) =>
      have := effort_of_again hfill
      drain onMessage now next state
    | (.complete, next) =>
      match hphase : next.phase with
      | .header =>
        have := effort_enterBody hfill hphase
        drain onMessage now next.enterBody state
      | .body _ =>
        let (handled, state) := onMessage { next with position := 0 } state
        have := effort_leaveBody handled hfill hphase
        drain onMessage now (handled.leaveBody next.inlet) state
  else (connection, state)
termination_by connection.effort

end Connection

end MeshControl
