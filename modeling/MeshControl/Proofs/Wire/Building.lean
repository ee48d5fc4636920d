import MeshControl.Proofs.Wire.Spelling
import MeshControl.Wire.Buffer.Lemmas
import MeshControl.Wire.Frame
import MeshControl.Wire.FrameStream

/-!
What building a frame gives. `Frame.payload?` is the body of a message as bytes, where it has one:
every field can be written and the body is not too long. Building in any buffer gives that body
behind its length and nothing else (`payload?_of_build_eq_ok`), and it succeeds whenever there is
such a body and the room that is asked for is not absurd (`exists_build_eq_ok`). What the buffer
held before, and the placeholder that the length replaces, leave no trace.
-/

namespace MeshControl

namespace Field

/-- The bytes of fields that can all be written. -/
def allBytes? : List Field → Option Bytes
  | [] => some []
  | field :: fields =>
    match field.bytes?, allBytes? fields with
    | some front, some back => some (front ++ back)
    | _, _ => none

theorem allBytes?_cons {field : Field} {fields : List Field} {bytes : Bytes} :
    allBytes? (field :: fields) = some bytes ↔
      ∃ front back, field.bytes? = some front ∧ allBytes? fields = some back ∧
        bytes = front ++ back := by
  simp only [allBytes?]
  cases field.bytes? with
  | none => simp
  | some front =>
    cases allBytes? fields with
    | none => simp
    | some back => simp [eq_comm]

theorem allSpelledBy_of_allBytes? {fields : List Field} {bytes : Bytes}
    (h : allBytes? fields = some bytes) : AllSpelledBy fields bytes := by
  induction fields generalizing bytes with
  | nil =>
    simp only [allBytes?, Option.some.injEq] at h
    exact h.symm
  | cons field fields ih =>
    obtain ⟨front, back, hfield, hfields, rfl⟩ := allBytes?_cons.mp h
    exact ⟨front, back, spelledBy_of_bytes? hfield, ih hfields, rfl⟩

theorem bytes?_of_pieces {field : Field} {pieces : List Bytes} (h : field.pieces = .ok pieces) :
    field.bytes? = some pieces.flatten := by
  simp only [bytes?, h]

end Field

namespace Encoder

theorem filled_of_append_eq_ok {bytes : Bytes} {before after : Buffer}
    (h : append bytes before = .ok () after) : after.filled = before.filled ++ bytes := by
  obtain ⟨_, _, _, hfilled⟩ := append_eq_ok_iff.mp h
  exact hfilled

theorem exists_append_eq_ok (bytes : Bytes) (before : Buffer)
    (hsmall : 2 * (before.cursor + bytes.length) ≤ maxCapacity) :
    ∃ after, append bytes before = .ok () after := by
  obtain ⟨grown, hreserve⟩ := exists_reserve_eq_ok hsmall
  exact ⟨grown.fill bytes, by simp [append, hreserve]⟩

theorem filled_of_forM_append {pieces : List Bytes} {before after : Buffer}
    (h : pieces.forM append before = .ok () after) :
    after.filled = before.filled ++ pieces.flatten := by
  induction pieces generalizing before with
  | nil =>
    have heq : before = after := (EStateM.Result.ok.inj h).2
    rw [heq, List.flatten_nil, List.append_nil]
  | cons piece pieces ih =>
    change (append piece >>= fun _ => pieces.forM append) before = _ at h
    obtain ⟨_, middle, hpiece, hpieces⟩ := bind_eq_ok_iff.mp h
    rw [ih hpieces, filled_of_append_eq_ok hpiece, List.flatten_cons, List.append_assoc]

theorem exists_forM_append (pieces : List Bytes) (before : Buffer)
    (hsmall : 2 * (before.cursor + pieces.flatten.length) ≤ maxCapacity) :
    ∃ after, pieces.forM append before = .ok () after := by
  induction pieces generalizing before with
  | nil => exact ⟨before, rfl⟩
  | cons piece pieces ih =>
    rw [List.flatten_cons, List.length_append] at hsmall
    obtain ⟨middle, hpiece⟩ := exists_append_eq_ok piece before (by omega)
    have hcursor := Buffer.cursor_of_filled_append (filled_of_append_eq_ok hpiece)
    obtain ⟨after, hpieces⟩ := ih middle (by omega)
    refine ⟨after, ?_⟩
    change (append piece >>= fun _ => pieces.forM append) before = _
    exact bind_eq_ok_iff.mpr ⟨(), middle, hpiece, hpieces⟩

end Encoder

namespace Field

theorem put_of_pieces {field : Field} {pieces : List Bytes} (h : field.pieces = .ok pieces) :
    field.put = pieces.forM Encoder.append := by
  simp only [put, h]

/-- A field that is written is written behind what is there. -/
theorem bytes?_of_put_eq_ok {field : Field} {before after : Buffer}
    (h : field.put before = .ok () after) :
    ∃ bytes, field.bytes? = some bytes ∧ after.filled = before.filled ++ bytes := by
  cases hpieces : field.pieces with
  | ok pieces =>
    rw [put_of_pieces hpieces] at h
    exact ⟨pieces.flatten, bytes?_of_pieces hpieces, Encoder.filled_of_forM_append h⟩
  | error e =>
    simp only [put, hpieces] at h
    cases h

theorem exists_put_eq_ok {field : Field} {bytes : Bytes} (before : Buffer)
    (hbytes : field.bytes? = some bytes)
    (hsmall : 2 * (before.cursor + bytes.length) ≤ maxCapacity) :
    ∃ after, field.put before = .ok () after := by
  cases hpieces : field.pieces with
  | ok pieces =>
    obtain rfl : pieces.flatten = bytes := by
      rw [bytes?_of_pieces hpieces] at hbytes
      exact Option.some.inj hbytes
    rw [put_of_pieces hpieces]
    exact Encoder.exists_forM_append pieces before hsmall
  | error e =>
    simp only [bytes?, hpieces] at hbytes
    cases hbytes

theorem allBytes?_of_putAll_eq_ok {fields : List Field} {before after : Buffer}
    (h : putAll fields before = .ok () after) :
    ∃ bytes, allBytes? fields = some bytes ∧ after.filled = before.filled ++ bytes := by
  unfold putAll at h
  induction fields generalizing before with
  | nil =>
    have heq : before = after := (EStateM.Result.ok.inj h).2
    exact ⟨[], rfl, by rw [heq, List.append_nil]⟩
  | cons field fields ih =>
    change (field.put >>= fun _ => fields.forM put) before = _ at h
    obtain ⟨_, middle, hfield, hfields⟩ := bind_eq_ok_iff.mp h
    obtain ⟨front, hfront, hmiddle⟩ := bytes?_of_put_eq_ok hfield
    obtain ⟨back, hback, hafter⟩ := ih hfields
    refine ⟨front ++ back, allBytes?_cons.mpr ⟨front, back, hfront, hback, rfl⟩, ?_⟩
    rw [hafter, hmiddle, List.append_assoc]

theorem exists_putAll_eq_ok {fields : List Field} {bytes : Bytes} (before : Buffer)
    (hbytes : allBytes? fields = some bytes)
    (hsmall : 2 * (before.cursor + bytes.length) ≤ maxCapacity) :
    ∃ after, putAll fields before = .ok () after := by
  unfold putAll
  induction fields generalizing before bytes with
  | nil => exact ⟨before, rfl⟩
  | cons field fields ih =>
    obtain ⟨front, back, hfront, hback, rfl⟩ := allBytes?_cons.mp hbytes
    rw [List.length_append] at hsmall
    obtain ⟨middle, hfield⟩ := exists_put_eq_ok before hfront (by omega)
    obtain ⟨written, hwritten, hfilled⟩ := bytes?_of_put_eq_ok hfield
    obtain rfl : front = written := Option.some.inj (hfront.symm.trans hwritten)
    have hcursor := Buffer.cursor_of_filled_append hfilled
    obtain ⟨after, hfields⟩ := ih middle hback (by omega)
    refine ⟨after, ?_⟩
    change (field.put >>= fun _ => fields.forM put) before = _
    exact bind_eq_ok_iff.mpr ⟨(), middle, hfield, hfields⟩

end Field

namespace Frame

/-- The body of a message of a type with some fields, if all of them can be written and the body is
not too long. -/
def payload? (type : MessageType) (fields : List Field) : Option Bytes :=
  match Field.allBytes? fields with
  | some bytes =>
    if 2 + bytes.length ≤ maxPayload then some (BigEndian.digits 2 type.code.toNat ++ bytes)
    else none
  | none => none

theorem payload?_eq_some_iff {type : MessageType} {fields : List Field} {payload : Bytes} :
    payload? type fields = some payload ↔
      ∃ bytes, Field.allBytes? fields = some bytes ∧ 2 + bytes.length ≤ maxPayload ∧
        payload = BigEndian.digits 2 type.code.toNat ++ bytes := by
  unfold payload?
  cases Field.allBytes? fields with
  | none => simp
  | some bytes => simp [eq_comm]

theorem filled_of_start_eq_ok {type : MessageType} {space : Nat} {before after : Buffer}
    (h : start type space before = .ok () after) :
    after.filled = [0, 0] ++ BigEndian.digits 2 type.code.toNat := by
  obtain ⟨_, cleared, hcleared, h⟩ := bind_eq_ok_iff.mp h
  obtain ⟨_, roomy, hreserve, h⟩ := bind_eq_ok_iff.mp h
  obtain ⟨_, marked, happend, hput⟩ := bind_eq_ok_iff.mp h
  have hreset : cleared = before.reset := (EStateM.Result.ok.inj hcleared).2.symm
  obtain ⟨bytes, hbytes, hafter⟩ := Field.bytes?_of_put_eq_ok hput
  have hcode : Field.bytes? (.u16 type.code) = some (BigEndian.digits 2 type.code.toNat) := by
    simp [Field.bytes?, Field.pieces]
  rw [hbytes, Option.some.injEq] at hcode
  rw [hafter, hcode, Encoder.filled_of_append_eq_ok happend, (Encoder.of_reserve_eq_ok hreserve).1,
    hreset, Buffer.filled_reset, List.nil_append]

/-- A message can be started wherever the room that is asked for can be had. -/
theorem exists_start_of_reserve_eq_ok (type : MessageType) {space : Nat} {before roomy : Buffer}
    (hreserve : Encoder.reserve (min (space + headerSize) maxSize) before.reset = .ok () roomy) :
    ∃ after, start type space before = .ok () after := by
  have hroomy : roomy.cursor = 0 := (Encoder.of_reserve_eq_ok hreserve).2.1
  obtain ⟨marked, happend⟩ := Encoder.exists_append_eq_ok [0, 0] roomy (by rw [hroomy]; decide)
  have hmarked : marked.cursor = 2 := by
    rw [Buffer.cursor_of_filled_append (Encoder.filled_of_append_eq_ok happend), hroomy]
    rfl
  have hbytes : Field.bytes? (.u16 type.code) = some (BigEndian.digits 2 type.code.toNat) := by
    simp [Field.bytes?, Field.pieces]
  obtain ⟨after, hcode⟩ := Field.exists_put_eq_ok marked hbytes (by simp [hmarked, maxCapacity])
  exact ⟨after, bind_eq_ok_iff.mpr ⟨(), before.reset, rfl,
    bind_eq_ok_iff.mpr ⟨(), roomy, hreserve, bind_eq_ok_iff.mpr ⟨(), marked, happend, hcode⟩⟩⟩⟩

theorem exists_start_eq_ok (type : MessageType) {space : Nat} (before : Buffer)
    (hspace : 2 * (space + headerSize) ≤ maxCapacity) :
    ∃ after, start type space before = .ok () after := by
  have hsmall : 2 * (before.reset.cursor + min (space + headerSize) maxSize) ≤ maxCapacity := by
    rw [Buffer.cursor_reset]
    omega
  obtain ⟨roomy, hreserve⟩ := Encoder.exists_reserve_eq_ok hsmall
  exact exists_start_of_reserve_eq_ok type hreserve

/-- The end of building: the length goes where its placeholder stands. -/
theorem finish_eq {body : Bytes} {buffer : Buffer} (hfilled : buffer.filled = [0, 0] ++ body)
    (hlength : body.length ≤ maxPayload) :
    ∃ after, finish buffer = .ok (FrameStream.frame body) after := by
  have hcursor : buffer.cursor = body.length + 2 := by
    rw [← Buffer.length_filled, hfilled, List.length_append, Nat.add_comm]
    rfl
  have hsize : buffer.cursor - lengthSize = body.length := by
    simp only [lengthSize]
    omega
  obtain ⟨patched, hpatch, hpatched⟩ :=
    Buffer.exists_patch? (UInt16.ofNat body.length) (show 0 + 2 ≤ buffer.cursor by omega)
  have hword : (UInt16.ofNat body.length).toNat = body.length :=
    UInt16.toNat_ofNat_of_lt' (Nat.lt_succ_of_le hlength)
  refine ⟨patched, ?_⟩
  simp only [finish, hsize, if_neg (Nat.not_lt.mpr hlength), hpatch, hpatched, hfilled, hword]
  rfl

theorem length_le_of_finish_eq_ok {buffer after : Buffer} {frame : Bytes}
    (h : finish buffer = .ok frame after) : buffer.cursor - lengthSize ≤ maxPayload := by
  apply Nat.le_of_not_lt
  intro hlong
  simp only [finish, if_pos hlong] at h
  cases h

/-- A frame that is built is the body behind its length. -/
theorem payload?_of_build_eq_ok {type : MessageType} {space : Nat} {fields : List Field}
    {before after : Buffer} {frame : Bytes} (h : build type space fields before = .ok frame after) :
    ∃ payload, payload? type fields = some payload ∧ frame = FrameStream.frame payload := by
  obtain ⟨_, started, hstart, h⟩ := bind_eq_ok_iff.mp h
  obtain ⟨_, filled, hfields, hfinish⟩ := bind_eq_ok_iff.mp h
  obtain ⟨bytes, hbytes, hfilled⟩ := Field.allBytes?_of_putAll_eq_ok hfields
  rw [filled_of_start_eq_ok hstart, List.append_assoc] at hfilled
  -- The cursor tells `finish` the length, so the test that it makes is the bound on the body.
  have hcursor : filled.cursor = 2 + (2 + bytes.length) := by
    rw [← Buffer.length_filled, hfilled, List.length_append, List.length_append,
      BigEndian.length_digits]
    rfl
  have hlength := length_le_of_finish_eq_ok hfinish
  rw [hcursor, lengthSize, Nat.add_sub_cancel_left] at hlength
  obtain ⟨patched, hframe⟩ := finish_eq hfilled (by simpa using hlength)
  rw [hframe] at hfinish
  exact ⟨_, payload?_eq_some_iff.mpr ⟨bytes, hbytes, hlength, rfl⟩,
    (EStateM.Result.ok.inj hfinish).1.symm⟩

/-- A message that has a body can be built in any buffer. -/
theorem exists_build_eq_ok {type : MessageType} {space : Nat} {fields : List Field}
    {payload : Bytes} (before : Buffer) (hpayload : payload? type fields = some payload)
    (hspace : 2 * (space + headerSize) ≤ maxCapacity) :
    ∃ after, build type space fields before = .ok (FrameStream.frame payload) after := by
  obtain ⟨bytes, hbytes, hlength, rfl⟩ := payload?_eq_some_iff.mp hpayload
  obtain ⟨started, hstart⟩ := exists_start_eq_ok type before hspace
  have hstarted := filled_of_start_eq_ok hstart
  have hcursor : started.cursor = 4 := by
    rw [← Buffer.length_filled, hstarted, List.length_append, BigEndian.length_digits]
    rfl
  obtain ⟨filled, hfields⟩ := Field.exists_putAll_eq_ok started hbytes (by
    simp only [hcursor, maxCapacity]
    simp only [maxPayload] at hlength
    omega)
  obtain ⟨written, hwritten, hfilled⟩ := Field.allBytes?_of_putAll_eq_ok hfields
  obtain rfl : bytes = written := Option.some.inj (hbytes.symm.trans hwritten)
  rw [hstarted, List.append_assoc] at hfilled
  obtain ⟨after, hfinish⟩ := finish_eq hfilled (by simpa using hlength)
  exact ⟨after, bind_eq_ok_iff.mpr ⟨(), started, hstart,
    bind_eq_ok_iff.mpr ⟨(), filled, hfields, hfinish⟩⟩⟩

end Frame

end MeshControl
