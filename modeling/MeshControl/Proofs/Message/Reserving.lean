import MeshControl.Proofs.Message.Fitting

/-!
The room that is reserved for a message is enough. Writing into a buffer that has the room leaves
its capacity alone. So building a frame allocates at its start or not at all, if the fields take up
no more than the room that is asked for (`Frame.capacity_of_build_eq_ok`); and a server asks for
exactly the size of the fields of each of its messages (`ServerMessage.capacity_of_encode_eq_ok`).
-/

namespace MeshControl

namespace Encoder

variable {before after : Buffer}

theorem eq_of_reserve_eq_ok {additional : Nat} (h : reserve additional before = .ok () after)
    (hroom : additional ≤ before.room) : after = before := by
  have hcursor := before.cursor_le
  simp only [Buffer.room, Buffer.capacity] at hroom
  have hfits : before.cursor + additional ≤ before.capacity := by
    simp only [Buffer.capacity]
    omega
  simp only [reserve, if_pos hfits] at h
  split at h
  · cases h
  · exact (EStateM.Result.ok.inj h).2.symm

theorem capacity_of_append_eq_ok {bytes : Bytes} (h : append bytes before = .ok () after)
    (hroom : bytes.length ≤ before.room) : after.capacity = before.capacity := by
  obtain ⟨grown, hreserve, rfl, -⟩ := append_eq_ok_iff.mp h
  rw [Buffer.capacity_fill, eq_of_reserve_eq_ok hreserve hroom]

theorem room_of_append_eq_ok {bytes : Bytes} (h : append bytes before = .ok () after)
    (hroom : bytes.length ≤ before.room) : after.room + bytes.length = before.room := by
  have hcapacity := capacity_of_append_eq_ok h hroom
  have hcursor := Buffer.cursor_of_filled_append (filled_of_append_eq_ok h)
  simp only [Buffer.room] at hroom ⊢
  omega

theorem capacity_of_forM_append {pieces : List Bytes}
    (h : pieces.forM append before = .ok () after) (hroom : pieces.flatten.length ≤ before.room) :
    after.capacity = before.capacity := by
  induction pieces generalizing before with
  | nil =>
    have heq : before = after := (EStateM.Result.ok.inj h).2
    rw [heq]
  | cons piece pieces ih =>
    change (append piece >>= fun _ => pieces.forM append) before = _ at h
    obtain ⟨_, middle, hpiece, hpieces⟩ := bind_eq_ok_iff.mp h
    rw [List.flatten_cons, List.length_append] at hroom
    have hleft := room_of_append_eq_ok hpiece (by omega)
    rw [ih hpieces (by omega), capacity_of_append_eq_ok hpiece (by omega)]

end Encoder

namespace Field

variable {before after : Buffer}

theorem capacity_of_put_eq_ok {field : Field} (h : field.put before = .ok () after)
    (hroom : field.size ≤ before.room) : after.capacity = before.capacity := by
  cases hpieces : field.pieces with
  | ok pieces =>
    rw [put_of_pieces hpieces] at h
    rw [← length_of_bytes? (bytes?_of_pieces hpieces)] at hroom
    exact Encoder.capacity_of_forM_append h hroom
  | error e =>
    simp only [put, hpieces] at h
    cases h

theorem cursor_of_put_eq_ok {field : Field} (h : field.put before = .ok () after) :
    after.cursor = before.cursor + field.size := by
  obtain ⟨bytes, hbytes, hfilled⟩ := bytes?_of_put_eq_ok h
  rw [Buffer.cursor_of_filled_append hfilled, length_of_bytes? hbytes]

theorem room_of_put_eq_ok {field : Field} (h : field.put before = .ok () after)
    (hroom : field.size ≤ before.room) : after.room + field.size = before.room := by
  have hcapacity := capacity_of_put_eq_ok h hroom
  have hcursor := cursor_of_put_eq_ok h
  simp only [Buffer.room] at hroom ⊢
  omega

/-- Fields that fit into the room that there is are written without growing. -/
theorem capacity_of_putAll_eq_ok {fields : List Field} (h : putAll fields before = .ok () after)
    (hroom : totalSize fields ≤ before.room) : after.capacity = before.capacity := by
  unfold putAll at h
  induction fields generalizing before with
  | nil =>
    have heq : before = after := (EStateM.Result.ok.inj h).2
    rw [heq]
  | cons field fields ih =>
    change (field.put >>= fun _ => fields.forM put) before = _ at h
    obtain ⟨_, middle, hfield, hfields⟩ := bind_eq_ok_iff.mp h
    rw [totalSize] at hroom
    have hleft := room_of_put_eq_ok hfield (by omega)
    rw [ih hfields (by omega), capacity_of_put_eq_ok hfield (by omega)]

end Field

namespace Frame

variable {type : MessageType} {space : Nat} {fields : List Field} {before after : Buffer}

/-- The room that is asked for is there when a message is begun. -/
theorem space_le_room_of_start_eq_ok (h : start type space before = .ok () after)
    (hspace : space + headerSize ≤ maxSize) : space ≤ after.room := by
  obtain ⟨_, cleared, hcleared, h⟩ := bind_eq_ok_iff.mp h
  obtain ⟨_, roomy, hreserve, h⟩ := bind_eq_ok_iff.mp h
  obtain ⟨_, marked, happend, hput⟩ := bind_eq_ok_iff.mp h
  obtain ⟨-, -, hroomy, -⟩ := Encoder.of_reserve_eq_ok hreserve
  rw [Nat.min_eq_left hspace, headerSize] at hroomy
  -- The placeholder of the length and the type code take up the four bytes that were added.
  have hmarked := Encoder.room_of_append_eq_ok happend (Nat.le_trans (by simp) hroomy)
  have hcode := Field.room_of_put_eq_ok hput (by
    simp only [List.length_cons, List.length_nil] at hmarked
    simp only [Field.size]
    omega)
  simp only [List.length_cons, List.length_nil] at hmarked
  simp only [Field.size] at hcode
  omega

theorem capacity_of_finish_eq_ok {frame : Bytes} (h : finish before = .ok frame after) :
    after.capacity = before.capacity := by
  simp only [finish] at h
  split at h
  · cases h
  · split at h
    · rename_i patched hpatch
      obtain ⟨-, rfl⟩ := EStateM.Result.ok.inj h
      exact Buffer.capacity_of_patch? hpatch
    · cases h

/-- Fields that fit into the room that is asked for are written without growing the buffer again.
-/
theorem capacity_of_build_eq_ok {frame : Bytes}
    (h : build type space fields before = .ok frame after)
    (hfields : Field.totalSize fields ≤ space) (hspace : space + headerSize ≤ maxSize) :
    ∃ started, start type space before = .ok () started ∧ after.capacity = started.capacity := by
  obtain ⟨_, started, hstart, h⟩ := bind_eq_ok_iff.mp h
  obtain ⟨_, filled, hput, hfinish⟩ := bind_eq_ok_iff.mp h
  have hroom := space_le_room_of_start_eq_ok hstart hspace
  refine ⟨started, hstart, ?_⟩
  rw [capacity_of_finish_eq_ok hfinish,
    Field.capacity_of_putAll_eq_ok hput (Nat.le_trans hfields hroom)]

end Frame

namespace ServerMessage

variable {message : ServerMessage} {before after : Buffer} {frame : Bytes}

/-- The room that is reserved for a message of a server is exactly what it takes up. -/
theorem capacity_of_encode_eq_ok (h : message.encode before = .ok frame after) :
    ∃ started, Frame.start message.type message.size before = .ok () started ∧
      after.capacity = started.capacity := by
  obtain ⟨payload, hpayload, -⟩ := Frame.payload?_of_build_eq_ok h
  have hspace := space_le hpayload
  refine Frame.capacity_of_build_eq_ok h (Nat.le_of_eq message.totalSize_fields) ?_
  simp only [maxCapacity, maxSize] at hspace ⊢
  omega

/-- A message is built exactly if it fits into a frame. -/
theorem exists_encode_eq_ok_iff (message : ServerMessage) (before : Buffer) :
    (∃ frame after, message.encode before = .ok frame after) ↔ message.Fits := by
  rw [← message.exists_payload?_iff]
  constructor
  · intro h
    obtain ⟨frame, after, hencode⟩ := h
    obtain ⟨payload, hpayload, -⟩ := Frame.payload?_of_build_eq_ok hencode
    exact ⟨payload, hpayload⟩
  · intro h
    obtain ⟨payload, hpayload⟩ := h
    obtain ⟨after, hencode⟩ := Frame.exists_build_eq_ok before hpayload (space_le hpayload)
    exact ⟨_, after, hencode⟩

end ServerMessage

end MeshControl
