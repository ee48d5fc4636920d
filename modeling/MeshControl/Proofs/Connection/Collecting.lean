import MeshControl.Connection.Framing
import MeshControl.Proofs.Wire.Spelling
import MeshControl.Wire.Buffer.Lemmas
import MeshControl.Wire.FrameStream

/-!
What one attempt to complete a phase does to the bytes on their way. A connection that is collecting
holds the part of a frame that has come so far: the two bytes of a length once they are complete,
and the input behind them. An attempt moves bytes from what has arrived to the end of that part and
moves nothing else (`fill_bytes`); `fill_steady` adds what it means that the attempt stops, on a
stream that neither ends nor fails. The equations of `drain` at the end of the module are its five
steps.
-/

namespace MeshControl

/-- The bytes that a read gave. -/
def ReadOutcome.bytes : ReadOutcome → Bytes
  | .data bytes => bytes
  | _ => []

/-- Whether an arrival neither ends the stream nor breaks it. -/
def Arrival.isSteady : Arrival → Bool
  | .data bytes => !bytes.isEmpty
  | .wouldBlock | .interrupted => true
  | .failed => false

/-- What is left of the arrivals once a read has found nothing. -/
def Arrival.pastBlock : List Arrival → List Arrival
  | [] => []
  | .wouldBlock :: rest => rest
  | .data _ :: rest | .interrupted :: rest | .failed :: rest => pastBlock rest

namespace Inlet

/-- A stream that neither ends nor fails: a read gives bytes, is interrupted or finds nothing. -/
def IsSteady (inlet : Inlet) : Prop :=
  inlet.ended = false ∧ ∀ arrival ∈ inlet.arrivals, arrival.isSteady = true

theorem pending_afterChunk (bytes : Bytes) (count : Nat) (rest : List Arrival) :
    Inlet.pending { arrivals := .data bytes :: rest } =
      bytes.take count ++ Inlet.pending { arrivals := afterChunk bytes count rest } := by
  unfold afterChunk
  cases hdrop : bytes.drop count with
  | nil =>
    have htake : bytes.take count = bytes := by
      rw [← List.take_append_drop count bytes, hdrop, List.append_nil, List.take_take,
        Nat.min_self]
    simp [pending, htake]
  | cons byte left =>
    simp only [pending, List.flatMap_cons]
    rw [← hdrop, ← List.append_assoc, List.take_append_drop]

/-- A read takes the bytes that it gives off the front of what is pending. -/
theorem pending_read {inlet rest : Inlet} {count : Nat} {outcome : ReadOutcome}
    (hread : inlet.read count = (outcome, rest)) :
    inlet.pending = outcome.bytes ++ rest.pending := by
  unfold read at hread
  split at hread
  · simp only [Prod.mk.injEq] at hread
    obtain ⟨rfl, rfl⟩ := hread
    split <;> rfl
  · rename_i later harrivals
    simp only [Prod.mk.injEq] at hread
    obtain ⟨rfl, rfl⟩ := hread
    simp [pending, harrivals, ReadOutcome.bytes]
  · rename_i bytes later _ harrivals
    simp only [Prod.mk.injEq] at hread
    obtain ⟨rfl, rfl⟩ := hread
    have hchunk := pending_afterChunk bytes count later
    simpa [pending, harrivals, ReadOutcome.bytes] using hchunk
  all_goals
    rename_i later harrivals
    simp only [Prod.mk.injEq] at hread
    obtain ⟨rfl, rfl⟩ := hread
    simp [pending, harrivals, ReadOutcome.bytes]

/-- A read gives no more bytes than it asks for. -/
theorem length_read_le {inlet rest : Inlet} {count : Nat} {outcome : ReadOutcome}
    (hread : inlet.read count = (outcome, rest)) : outcome.bytes.length ≤ count := by
  unfold read at hread
  split at hread
  case h_3 =>
    simp only [Prod.mk.injEq] at hread
    obtain ⟨rfl, -⟩ := hread
    exact List.length_take_le _ _
  case h_1 =>
    simp only [Prod.mk.injEq] at hread
    obtain ⟨rfl, -⟩ := hread
    split <;> exact Nat.zero_le _
  all_goals
    simp only [Prod.mk.injEq] at hread
    obtain ⟨rfl, -⟩ := hread
    exact Nat.zero_le _

/-- On a steady stream a read finds nothing, is interrupted, or gives at least one byte. Only a read
that finds nothing uses up the mark at which reading stops. -/
theorem read_steady {inlet rest : Inlet} {count : Nat} {outcome : ReadOutcome}
    (hsteady : inlet.IsSteady) (hcount : 0 < count) (hread : inlet.read count = (outcome, rest)) :
    rest.IsSteady ∧
      (outcome = .wouldBlock ∧ rest.arrivals = Arrival.pastBlock inlet.arrivals ∨
        (outcome = .interrupted ∨ ∃ bytes, outcome = .data bytes ∧ bytes ≠ []) ∧
          Arrival.pastBlock rest.arrivals = Arrival.pastBlock inlet.arrivals) := by
  obtain ⟨hended, hall⟩ := hsteady
  unfold read at hread
  split at hread
  · rename_i harrivals
    simp only [hended, Bool.false_eq_true, if_false, Prod.mk.injEq] at hread
    obtain ⟨rfl, rfl⟩ := hread
    exact ⟨⟨hended, hall⟩, .inl ⟨rfl, by simp [harrivals, Arrival.pastBlock]⟩⟩
  · rename_i later harrivals
    have hfirst := hall (.data []) (by simp [harrivals])
    simp [Arrival.isSteady] at hfirst
  · rename_i bytes later hne harrivals
    simp only [Prod.mk.injEq] at hread
    obtain ⟨rfl, rfl⟩ := hread
    have hlater : ∀ arrival ∈ later, arrival.isSteady = true := fun arrival harrival =>
      hall arrival (by simp [harrivals, harrival])
    have hgiven : bytes.take count ≠ [] := by
      intro hnil
      rcases List.take_eq_nil_iff.mp hnil with h | h
      · omega
      · exact hne h
    refine ⟨⟨hended, ?_⟩, .inr ⟨.inr ⟨_, rfl, hgiven⟩, ?_⟩⟩
    · intro arrival harrival
      simp only [afterChunk] at harrival
      split at harrival
      · exact hlater arrival harrival
      · rename_i left hleft
        rcases List.mem_cons.mp harrival with rfl | harrival
        · simpa [Arrival.isSteady] using hleft
        · exact hlater arrival harrival
    · simp only [harrivals, Arrival.pastBlock, afterChunk]
      split <;> rfl
  · rename_i later harrivals
    simp only [Prod.mk.injEq] at hread
    obtain ⟨rfl, rfl⟩ := hread
    refine ⟨⟨hended, fun arrival harrival => hall arrival (by simp [harrivals, harrival])⟩,
      .inl ⟨rfl, by simp [harrivals, Arrival.pastBlock]⟩⟩
  · rename_i later harrivals
    simp only [Prod.mk.injEq] at hread
    obtain ⟨rfl, rfl⟩ := hread
    refine ⟨⟨hended, fun arrival harrival => hall arrival (by simp [harrivals, harrival])⟩,
      .inr ⟨.inl rfl, by simp [harrivals, Arrival.pastBlock]⟩⟩
  · rename_i later harrivals
    have hfirst := hall .failed (by simp [harrivals])
    simp [Arrival.isSteady] at hfirst

end Inlet

/-- The bytes of a frame that come before the bytes of the phase. -/
def Phase.announced : Phase → Bytes
  | header => []
  | body length => BigEndian.digits 2 length.toNat

theorem Phase.expected_lt (phase : Phase) : phase.expected < 65536 := by
  cases phase with
  | header => decide
  | body length => exact length.toNat_lt

namespace Connection

/-- The part of the current frame that has come. -/
def collected (connection : Connection) : Bytes :=
  connection.phase.announced ++ connection.input.filled

/-- A connection has no more bytes than its phase needs. -/
def IsCollecting (connection : Connection) : Prop :=
  connection.input.cursor ≤ connection.phase.expected

/-- Room for what a phase lacks can always be made. -/
theorem exists_reserve_lacking {connection : Connection} (hcollecting : connection.IsCollecting) :
    ∃ input, Encoder.reserve connection.lacking connection.input = .ok () input := by
  apply Encoder.exists_reserve_eq_ok
  have hexpected := connection.phase.expected_lt
  simp only [IsCollecting] at hcollecting
  simp only [lacking, maxCapacity]
  omega

/-- What an attempt does, whatever it comes to: nothing if the phase is complete, and else one read
for the bytes that the phase lacks. -/
theorem fill_cases {connection next : Connection} {now : Nat} {outcome : Fill}
    (hcollecting : connection.IsCollecting) (hfill : connection.fill now = (outcome, next)) :
    (connection.lacking = 0 ∧ outcome = .complete ∧ next = connection) ∨
      (0 < connection.lacking ∧ ∃ input given inlet,
        Encoder.reserve connection.lacking connection.input = .ok () input ∧
        connection.inlet.read connection.lacking = (given, inlet) ∧
        { connection with input, inlet }.afterRead now connection.lacking given =
          (outcome, next)) := by
  unfold fill at hfill
  by_cases hlacking : connection.lacking = 0
  · simp only [hlacking, if_true, Prod.mk.injEq] at hfill
    exact .inl ⟨hlacking, hfill.1.symm, hfill.2.symm⟩
  · obtain ⟨input, hreserve⟩ := exists_reserve_lacking hcollecting
    simp only [hlacking, if_false, hreserve] at hfill
    cases hread : connection.inlet.read connection.lacking with
    | mk given inlet =>
      simp only [hread] at hfill
      exact .inr ⟨Nat.pos_of_ne_zero hlacking, input, given, inlet, hreserve, rfl, hfill⟩

/-- An attempt may take bytes in and may close the connection, and does nothing else. -/
theorem fill_frame {connection next : Connection} {now : Nat} {outcome : Fill}
    (hfill : connection.fill now = (outcome, next)) :
    ∃ inlet isOpen input lastActivity,
      next = { connection with inlet, isOpen, input, lastActivity } := by
  unfold fill at hfill
  by_cases hlacking : connection.lacking = 0
  · simp only [hlacking, if_true, Prod.mk.injEq] at hfill
    exact ⟨_, _, _, _, hfill.2.symm⟩
  · simp only [hlacking, if_false] at hfill
    cases hreserve : Encoder.reserve connection.lacking connection.input with
    | error e input =>
      simp only [hreserve, Prod.mk.injEq] at hfill
      exact ⟨_, _, _, _, hfill.2.symm⟩
    | ok _ input =>
      simp only [hreserve] at hfill
      cases hread : connection.inlet.read connection.lacking with
      | mk given inlet =>
        simp only [hread] at hfill
        cases given <;> simp only [afterRead, Prod.mk.injEq] at hfill <;>
          exact ⟨_, _, _, _, hfill.2.symm⟩

/-- An attempt moves bytes from what is pending to the part of the frame that has come, and
completes the phase exactly when nothing is lacking. -/
theorem fill_bytes {connection next : Connection} {now : Nat} {outcome : Fill}
    (hcollecting : connection.IsCollecting) (hfill : connection.fill now = (outcome, next)) :
    next.phase = connection.phase ∧ next.IsCollecting ∧
      (outcome = .complete → next.input.cursor = next.phase.expected) ∧
      ∃ bytes, connection.inlet.pending = bytes ++ next.inlet.pending ∧
        next.collected = connection.collected ++ bytes := by
  rcases fill_cases hcollecting hfill with
    ⟨hlacking, rfl, rfl⟩ | ⟨hlacking, input, given, inlet, hreserve, hread, hafter⟩
  · refine ⟨rfl, hcollecting, fun _ => ?_, [], rfl, by simp⟩
    simp only [IsCollecting] at hcollecting
    simp only [lacking] at hlacking
    omega
  · obtain ⟨hfilled, hcursor, hroom, -⟩ := Encoder.of_reserve_eq_ok hreserve
    have hpending := Inlet.pending_read hread
    have hlength := Inlet.length_read_le hread
    have hsame : input.cursor ≤ connection.phase.expected := hcursor ▸ hcollecting
    cases given with
    | data bytes =>
      simp only [ReadOutcome.bytes] at hpending hlength
      have hfits : bytes.length ≤ input.room := Nat.le_trans hlength hroom
      have happend := Buffer.filled_fill hfits
      have hend : (input.fill bytes).cursor = connection.input.cursor + bytes.length := by
        rw [Buffer.cursor_of_filled_append happend, hcursor]
      simp only [afterRead, received, Prod.mk.injEq] at hafter
      obtain ⟨houtcome, rfl⟩ := hafter
      refine ⟨rfl, ?_, ?_, bytes, hpending, ?_⟩
      · simp only [lacking] at hlacking hlength
        simp only [IsCollecting, hend]
        omega
      · intro hcomplete
        have hall : ¬ bytes.length < connection.lacking := by
          intro hshort
          rw [if_pos hshort, hcomplete] at houtcome
          cases houtcome
        simp only [lacking] at hlacking hlength hall
        simp only [hend]
        omega
      · simp only [collected, happend, hfilled, List.append_assoc]
    | interrupted | wouldBlock | ended | failed =>
      simp only [afterRead, close, Prod.mk.injEq] at hafter
      obtain ⟨rfl, rfl⟩ := hafter
      refine ⟨rfl, hsame, by simp, [], hpending, ?_⟩
      simp only [collected, hfilled, List.append_nil]

/-- On a steady stream an attempt closes nothing, and it stops only where a read has found nothing
and bytes are lacking. -/
theorem fill_steady {connection next : Connection} {now : Nat} {outcome : Fill}
    (hcollecting : connection.IsCollecting) (hsteady : connection.inlet.IsSteady)
    (hfill : connection.fill now = (outcome, next)) :
    next.isOpen = connection.isOpen ∧ next.inlet.IsSteady ∧
      (outcome = .stop → next.input.cursor < next.phase.expected ∧
        next.inlet.arrivals = Arrival.pastBlock connection.inlet.arrivals) ∧
      (outcome ≠ .stop →
        Arrival.pastBlock next.inlet.arrivals = Arrival.pastBlock connection.inlet.arrivals) := by
  rcases fill_cases hcollecting hfill with
    ⟨-, rfl, rfl⟩ | ⟨hlacking, input, given, inlet, hreserve, hread, hafter⟩
  · exact ⟨rfl, hsteady, by simp, fun _ => rfl⟩
  · obtain ⟨-, hcursor, -, -⟩ := Encoder.of_reserve_eq_ok hreserve
    obtain ⟨hrest, hcases⟩ := Inlet.read_steady hsteady hlacking hread
    rcases hcases with ⟨rfl, hpast⟩ | ⟨rfl | ⟨bytes, rfl, -⟩, hpast⟩
    · simp only [afterRead, Prod.mk.injEq] at hafter
      obtain ⟨rfl, rfl⟩ := hafter
      simp only [lacking] at hlacking
      refine ⟨rfl, hrest, fun _ => ⟨?_, hpast⟩, by simp⟩
      simp only [hcursor]
      omega
    · simp only [afterRead, Prod.mk.injEq] at hafter
      obtain ⟨rfl, rfl⟩ := hafter
      exact ⟨rfl, hrest, by simp, fun _ => hpast⟩
    · simp only [afterRead, received, Prod.mk.injEq] at hafter
      obtain ⟨houtcome, rfl⟩ := hafter
      refine ⟨rfl, hrest, fun hstop => ?_, fun _ => hpast⟩
      rw [hstop] at houtcome
      split at houtcome <;> cases houtcome

/-- Two bytes of input announce the length that they spell. -/
theorem digits_announcedLength {connection : Connection} (hcursor : connection.input.cursor = 2) :
    BigEndian.digits 2 connection.announcedLength.toNat = connection.input.filled := by
  have hlength : connection.input.filled.length = 2 := by rw [Buffer.length_filled, hcursor]
  have htake : connection.input.filled.take 2 = connection.input.filled :=
    List.take_of_length_le (by omega)
  rw [announcedLength, htake, BigEndian.digits_u16 hlength]

section

variable {σ : Type} {onMessage : Connection → σ → Connection × σ} {now : Nat}
  {connection next : Connection} {state : σ}

theorem drain_closed (hclosed : ¬ connection.isOpen = true) :
    drain onMessage now connection state = (connection, state) := by
  rw [drain, if_neg hclosed]

theorem drain_stop (hopen : connection.isOpen = true)
    (hfill : connection.fill now = (.stop, next)) :
    drain onMessage now connection state = (next, state) := by
  rw [drain, if_pos hopen]
  split <;> simp_all

theorem drain_again (hopen : connection.isOpen = true)
    (hfill : connection.fill now = (.again, next)) :
    drain onMessage now connection state = drain onMessage now next state := by
  rw [drain, if_pos hopen]
  split <;> simp_all

theorem drain_header (hopen : connection.isOpen = true)
    (hfill : connection.fill now = (.complete, next)) (hphase : next.phase = .header) :
    drain onMessage now connection state = drain onMessage now next.enterBody state := by
  rw [drain, if_pos hopen]
  split <;> simp_all
  split <;> simp_all

theorem drain_body {length : UInt16} {handled : Connection} {state' : σ}
    (hopen : connection.isOpen = true) (hfill : connection.fill now = (.complete, next))
    (hphase : next.phase = .body length)
    (hmessage : onMessage { next with position := 0 } state = (handled, state')) :
    drain onMessage now connection state =
      drain onMessage now (handled.leaveBody next.inlet) state' := by
  rw [drain, if_pos hopen]
  split <;> simp_all
  split <;> simp_all

end

end Connection

end MeshControl
