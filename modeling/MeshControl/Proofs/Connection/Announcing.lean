import MeshControl.Proofs.Connection.Sending
import MeshControl.Proofs.Message.Reserving

/-!
How an event reaches a peer: whole or not at all. The size that an event announces decides whether
it becomes a frame. If it does, the frame holds that many bytes, which mean the event again, and the
buffer was as large as it had to be when the frame was begun. If it does not, the connection is
closed and the stream is left alone.
-/

namespace MeshControl

/-- A message without a body closes the connection and is not offered to the stream. -/
theorem Exchange.sendMessage_of_payload?_eq_none {message : ServerMessage}
    (hnone : message.payload? = none) (connection : Connection) :
    ∃ e after, sendMessage message connection = .error e after ∧ after.isOpen = false ∧
      after.outlet = connection.outlet := by
  cases hopen : connection.isOpen with
  | false =>
    refine ⟨.closed, connection, ?_, hopen, rfl⟩
    simp only [sendMessage, send, hopen, Bool.false_eq_true, if_false]
  | true =>
    rcases sendMessage_cases connection message hopen with
      ⟨after, -, hsends⟩ | ⟨e, after, hsend, hsends⟩
    · cases hsends with
      | taken output hpayload => simp only [hnone, reduceCtorEq] at hpayload
    · refine ⟨e, after, hsend, ?_⟩
      cases hsends with
      | unwritable output => exact ⟨rfl, rfl⟩
      | broken output hpayload => simp only [hnone, reduceCtorEq] at hpayload

namespace Connection

/-- An event is built into a frame, whatever the buffer held before, exactly if its size and that of
the type code are at most the longest payload. Every frame that is built has that length, is written
without growing the buffer after it was begun, and means the event; an event that is not built
closes the connection and writes nothing. -/
theorem event_round_trip (event : Event) (before : Buffer) :
    ((∃ frame after, (ServerMessage.event event).encode before = .ok frame after) ↔
        2 + event.size ≤ maxPayload) ∧
      (∀ frame after, (ServerMessage.event event).encode before = .ok frame after →
        ∃ payload started, frame = FrameStream.frame payload ∧
          payload.length = 2 + event.size ∧
          Frame.start .event event.size before = .ok () started ∧
          after.capacity = started.capacity ∧
          ServerMessage.decode payload = .ok (.event event)) ∧
      (maxPayload < 2 + event.size → ∀ connection : Connection,
        ∃ e after, Exchange.sendEvent event connection = .error e after ∧
          after.isOpen = false ∧ after.outlet = connection.outlet) := by
  refine ⟨ServerMessage.exists_encode_eq_ok_iff (.event event) before, ?_, ?_⟩
  · intro frame after hencode
    obtain ⟨payload, hpayload, rfl⟩ := Frame.payload?_of_build_eq_ok hencode
    obtain ⟨started, hstart, hcapacity⟩ := ServerMessage.capacity_of_encode_eq_ok hencode
    have hlength := Frame.length_payload hpayload
    rw [ServerMessage.totalSize_fields] at hlength
    exact ⟨payload, started, rfl, hlength, hstart, hcapacity,
      ServerMessage.decode_payload hpayload⟩
  · intro hlong connection
    have hnone := (ServerMessage.payload?_eq_none_iff (.event event)).mpr (Nat.not_le_of_gt hlong)
    exact Exchange.sendMessage_of_payload?_eq_none hnone connection

/-- A service is built in a buffer that held other bytes; 4681 prefixes are too many for an event.
-/
theorem event_round_trip_servicesAndPrefixes :
    (∃ payload after, (ServerMessage.event (.services [⟨1, [7], [8, 9]⟩])).encode
          ⟨#[5, 5, 5], 2, by decide⟩ = .ok (FrameStream.frame payload) after ∧
        payload.length = 19 ∧
        ServerMessage.decode payload = .ok (.event (.services [⟨1, [7], [8, 9]⟩]))) ∧
      ∀ entry : OnMeshPrefix, ∃ e after,
        Exchange.sendEvent (.prefixes (List.replicate 4681 entry)) { id := 1, input := .empty } =
          .error e after ∧ after.isOpen = false ∧ after.outlet = {} := by
  constructor
  · obtain ⟨hfits, hwhole, -⟩ :=
      event_round_trip (.services [⟨1, [7], [8, 9]⟩]) ⟨#[5, 5, 5], 2, by decide⟩
    obtain ⟨frame, after, hencode⟩ := hfits.mpr (by decide)
    obtain ⟨payload, started, rfl, hlength, -, -, hdecode⟩ := hwhole frame after hencode
    exact ⟨payload, after, hencode, hlength, hdecode⟩
  · intro entry
    have hlong : maxPayload < 2 + (Event.prefixes (List.replicate 4681 entry)).size := by
      simp only [Event.size, List.length_replicate, maxPayload]
      decide
    exact (event_round_trip (.prefixes (List.replicate 4681 entry)) .empty).2.2 hlong _

end Connection

end MeshControl
