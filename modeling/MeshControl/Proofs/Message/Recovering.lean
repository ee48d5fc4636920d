import MeshControl.Proofs.Message.Grammar
import MeshControl.Proofs.Message.Reserving
import MeshControl.Proofs.Wire.Attempting
import MeshControl.Proofs.Wire.Composing

/-!
What is put into a message is what is read from it. Fields of any types are put one after the other,
and a field that is too long for its length word is refused and leaves no trace. The frame that
comes of it depends on the type of the message and on the fields that were written, and on nothing
that the buffer held before; and reading the same types off its body gives those fields and nothing
else (`Frame.fields_recovered`).
-/

namespace MeshControl

namespace Encoder

/-- Room cannot be made only for want of memory. -/
theorem outOfMemory_of_reserve_eq_error {additional : Nat} {before after : Buffer} {e : WireError}
    (h : reserve additional before = .error e after) : ∃ requested, e = .outOfMemory requested := by
  simp only [reserve] at h
  split at h
  · exact ⟨_, (EStateM.Result.error.inj h).1.symm⟩
  · split at h
    · cases h
    · split at h
      · exact ⟨_, (EStateM.Result.error.inj h).1.symm⟩
      · cases h

theorem outOfMemory_of_append_eq_error {bytes : Bytes} {before after : Buffer} {e : WireError}
    (h : append bytes before = .error e after) : ∃ requested, e = .outOfMemory requested := by
  unfold append at h
  split at h
  · cases h
  · rename_i hreserve
    obtain ⟨rfl, -⟩ := EStateM.Result.error.inj h
    exact outOfMemory_of_reserve_eq_error hreserve

theorem outOfMemory_of_forM_append_eq_error {pieces : List Bytes} {before after : Buffer}
    {e : WireError} (h : pieces.forM append before = .error e after) :
    ∃ requested, e = .outOfMemory requested := by
  induction pieces generalizing before with
  | nil => cases h
  | cons piece pieces ih =>
    change (append piece >>= fun _ => pieces.forM append) before = _ at h
    cases hpiece : append piece before with
    | ok value middle =>
      rw [bind_of_eq_ok hpiece] at h
      exact ih h
    | error other middle =>
      rw [bind_of_eq_error hpiece] at h
      obtain ⟨rfl, -⟩ := EStateM.Result.error.inj h
      exact outOfMemory_of_append_eq_error hpiece

theorem attempt_eq_leaves {α : Type} (step : Encoder α) (before : Buffer) :
    (attempt step before).2 = step.leaves before := by
  unfold attempt leaves
  cases step before <;> rfl

end Encoder

namespace Field

/-- Whether a field is longer than its length word can tell. The largest length of a text means that
there is none. -/
def TooLong : Field → Prop
  | blob value => 65535 < value.length
  | text (some value) => 65535 ≤ (Utf8.write value).length
  | count value => 65535 < value
  | _ => False

instance : (field : Field) → Decidable field.TooLong
  | blob value => inferInstanceAs (Decidable (65535 < value.length))
  | text (some value) => inferInstanceAs (Decidable (65535 ≤ (Utf8.write value).length))
  | count value => inferInstanceAs (Decidable (65535 < value))
  | text none | u8 _ | u16 _ | u32 _ | i32 _ | bool _ => inferInstanceAs (Decidable False)

/-- The fields that can be written. -/
def writable (fields : List Field) : List Field :=
  fields.filter fun field => ¬ field.TooLong

variable {field : Field} {fields : List Field}

theorem exists_pieces_eq_error (h : field.TooLong) : ∃ e, field.pieces = .error e := by
  cases field with
  | blob value => exact ⟨_, if_neg (Nat.not_le_of_lt h)⟩
  | text value =>
    cases value with
    | none => exact h.elim
    | some value => exact ⟨_, if_neg (Nat.not_lt_of_le h)⟩
  | count value => exact ⟨_, if_neg (Nat.not_le_of_lt h)⟩
  | u8 | u16 | u32 | i32 | bool => exact h.elim

theorem exists_pieces_eq_ok (h : ¬ field.TooLong) : ∃ pieces, field.pieces = .ok pieces := by
  cases field with
  | blob value => exact ⟨_, if_pos (Nat.le_of_not_lt h)⟩
  | text value =>
    cases value with
    | none => exact ⟨_, rfl⟩
    | some value => exact ⟨_, if_pos (Nat.lt_of_not_le h)⟩
  | count value => exact ⟨_, if_pos (Nat.le_of_not_lt h)⟩
  | u8 | u16 | u32 | i32 | bool => exact ⟨_, rfl⟩

theorem size_le_of_not_tooLong (h : ¬ field.TooLong) : field.size ≤ 2 + maxPayload := by
  cases field with
  | blob value =>
    have hlength : value.length ≤ 65535 := Nat.le_of_not_lt h
    exact Nat.add_le_add_left hlength 2
  | text value =>
    cases value with
    | none => exact Nat.le_add_right ..
    | some value =>
      have hlength : (Utf8.write value).length < 65535 := Nat.lt_of_not_le h
      exact Nat.add_le_add_left (Nat.le_of_lt hlength) 2
  | u8 | u16 | u32 | i32 | bool | count => simp only [size, maxPayload]; omega

theorem put_of_tooLong (h : field.TooLong) (before : Buffer) :
    ∃ e, field.put before = .error e before := by
  obtain ⟨e, hpieces⟩ := exists_pieces_eq_error h
  refine ⟨e, ?_⟩
  simp only [put, hpieces]
  rfl

/-- A field that is not too long is written where there is memory for it. -/
theorem put_of_not_tooLong (before : Buffer) (h : ¬ field.TooLong)
    (hmemory : 2 * (before.cursor + field.size) ≤ maxCapacity) :
    ∃ bytes after, field.bytes? = some bytes ∧ field.put before = .ok () after ∧
      after.filled = before.filled ++ bytes := by
  obtain ⟨pieces, hpieces⟩ := exists_pieces_eq_ok h
  have hbytes := bytes?_of_pieces hpieces
  rw [← length_of_bytes? hbytes] at hmemory
  obtain ⟨after, hput⟩ := exists_put_eq_ok before hbytes hmemory
  obtain ⟨_, hwritten, hfilled⟩ := bytes?_of_put_eq_ok hput
  rw [← Option.some.inj (hbytes.symm.trans hwritten)] at hfilled
  exact ⟨_, after, hbytes, hput, hfilled⟩

theorem of_put_eq_error {before after : Buffer} {e : WireError}
    (h : field.put before = .error e after) :
    field.TooLong ∨ ∃ requested, e = .outOfMemory requested := by
  by_cases hlong : field.TooLong
  · exact .inl hlong
  · obtain ⟨pieces, hpieces⟩ := exists_pieces_eq_ok hlong
    rw [put_of_pieces hpieces] at h
    exact .inr (Encoder.outOfMemory_of_forM_append_eq_error h)

/-- Puts fields one after the other, whatever becomes of each. Gives what each put came to. -/
def putEach (fields : List Field) (before : Buffer) : List (Except WireError Unit) × Buffer :=
  attemptAll (fields.map put) before

theorem putEach_cons (field : Field) (fields : List Field) (before : Buffer) :
    putEach (field :: fields) before =
      ((attempt field.put before).1 :: (putEach fields (attempt field.put before).2).1,
        (putEach fields (attempt field.put before).2).2) :=
  rfl

/-- The fields among some that were put, by what their puts came to. -/
def accepted (fields : List Field) (results : List (Except WireError Unit)) : List Field :=
  ((fields.zip results).filter fun (_, result) => result.isOk).map Prod.fst

theorem writable_cons_of_tooLong (h : field.TooLong) :
    writable (field :: fields) = writable fields := by
  simp [writable, h]

theorem writable_cons_of_not_tooLong (h : ¬ field.TooLong) :
    writable (field :: fields) = field :: writable fields := by
  simp [writable, h]

theorem cursor_le_attempt_put (field : Field) (before : Buffer) :
    before.cursor ≤ (attempt field.put before).2.cursor := by
  rw [Encoder.attempt_eq_leaves, ← Buffer.length_filled, ← Buffer.length_filled]
  exact (field.filled_prefix_put before).length_le

theorem cursor_le_putEach (fields : List Field) (before : Buffer) :
    before.cursor ≤ (putEach fields before).2.cursor := by
  refine attemptAll_keeps (motive := fun buffer : Buffer => before.cursor ≤ buffer.cursor) ?_
    (Nat.le_refl _)
  intro step hstep buffer hbuffer
  obtain ⟨field, -, rfl⟩ := List.mem_map.mp hstep
  exact Nat.le_trans hbuffer (cursor_le_attempt_put field buffer)

/-- Where there is memory, the fields that can be written are put and no others, and what they take
up is all that is added. -/
theorem putEach_of_memory (fields : List Field) (before : Buffer)
    (hmemory : 2 * (before.cursor + totalSize (writable fields)) ≤ maxCapacity) :
    accepted fields (putEach fields before).1 = writable fields ∧
      ∃ bytes, allBytes? (writable fields) = some bytes ∧
        (putEach fields before).2.filled = before.filled ++ bytes := by
  induction fields generalizing before with
  | nil => exact ⟨rfl, [], rfl, (List.append_nil _).symm⟩
  | cons field fields ih =>
    rw [putEach_cons]
    by_cases hlong : field.TooLong
    · obtain ⟨e, hput⟩ := put_of_tooLong hlong before
      rw [writable_cons_of_tooLong hlong] at hmemory ⊢
      rw [attempt_of_eq_error hput]
      exact ih before hmemory
    · rw [writable_cons_of_not_tooLong hlong] at hmemory ⊢
      rw [totalSize] at hmemory
      obtain ⟨front, middle, hfront, hput, hmiddle⟩ :=
        put_of_not_tooLong before hlong (by omega)
      have hcursor := cursor_of_put_eq_ok hput
      obtain ⟨haccepted, back, hback, hfilled⟩ := ih middle (by omega)
      rw [attempt_of_eq_ok hput]
      refine ⟨congrArg (field :: ·) haccepted, front ++ back,
        allBytes?_cons.mpr ⟨front, back, hfront, hback, rfl⟩, ?_⟩
      rw [hfilled, hmiddle, List.append_assoc]

/-- Without regard to memory, what the writable ones among some fields take up is added as long as
it is no more than fits into a frame. -/
theorem min_le_cursor_putEach (fields : List Field) (before : Buffer) :
    min (before.cursor + totalSize (writable fields)) (maxPayload + 3) ≤
      (putEach fields before).2.cursor := by
  induction fields generalizing before with
  | nil => exact Nat.min_le_left ..
  | cons field fields ih =>
    rw [putEach_cons]
    by_cases hlong : field.TooLong
    · obtain ⟨e, hput⟩ := put_of_tooLong hlong before
      rw [writable_cons_of_tooLong hlong, attempt_of_eq_error hput]
      exact ih before
    · by_cases hfull : maxPayload + 3 ≤ before.cursor
      · refine Nat.le_trans (Nat.min_le_right ..) (Nat.le_trans hfull ?_)
        rw [← putEach_cons]
        exact cursor_le_putEach (field :: fields) before
      · have hsize := size_le_of_not_tooLong hlong
        obtain ⟨-, middle, -, hput, -⟩ := put_of_not_tooLong before hlong (by
          simp only [maxPayload, maxCapacity] at hfull hsize ⊢
          omega)
        have hcursor := cursor_of_put_eq_ok hput
        rw [writable_cons_of_not_tooLong hlong, totalSize, ← Nat.add_assoc, ← hcursor,
          attempt_of_eq_ok hput]
        exact ih middle

end Field

/-- Fields are read one after the other by their types. -/
theorem Field.attemptAll_read {fields : List Field} {bytes : Bytes} (rest : Bytes) (position : Nat)
    (hof : ∀ field ∈ fields, field.type.IsOf field) (hspelled : AllSpelledBy fields bytes) :
    attemptAll (fields.map fun field => field.type.read) ⟨position, bytes ++ rest⟩ =
      (fields.map .ok, ⟨position + bytes.length, rest⟩) := by
  induction fields generalizing bytes position with
  | nil =>
    obtain rfl := hspelled
    rfl
  | cons field fields ih =>
    obtain ⟨front, back, hfront, hback, rfl⟩ := hspelled
    have hread : field.type.read ⟨position, front ++ back ++ rest⟩ =
        .ok field ⟨position + front.length, back ++ rest⟩ :=
      (field.type.parses_read _ _ _).mpr
        ⟨front, ⟨hof field (List.mem_cons_self ..), hfront⟩, List.append_assoc .., rfl⟩
    have htail := ih (position + front.length)
      (fun other hother => hof other (List.mem_cons_of_mem _ hother)) hback
    rw [List.map_cons, attemptAll_cons_of_eq_ok hread, htail, List.length_append, Nat.add_assoc]
    rfl

/-- A field of a message is read by its type. The count of a list is no field of its own. -/
theorem Field.isOf_type {field : Field} (h : ∀ n, field ≠ .count n) : field.type.IsOf field := by
  cases field with
  | count n => exact absurd rfl (h n)
  | u8 value | u16 value | u32 value | i32 value | bool value | blob value | text value =>
    exact ⟨value, rfl⟩

namespace Frame

/-- Reading the type code and then fields of some types from a body gives those fields, and leaves
nothing. -/
def ReadBack (type : MessageType) (fields : List Field) (body : Bytes) : Prop :=
  ∃ opened ended : Reader, Decoder.u16 (Reader.start body) = .ok type.code opened ∧
    attemptAll (fields.map fun field => field.type.read) opened = (fields.map .ok, ended) ∧
    Decoder.finish ended = .ok () ended

theorem readBack_of_allBytes? (type : MessageType) {fields : List Field} {bytes : Bytes}
    (hof : ∀ field ∈ fields, field.type.IsOf field) (hbytes : Field.allBytes? fields = some bytes) :
    ReadBack type fields (BigEndian.digits 2 type.code.toNat ++ bytes) := by
  have hread := Field.attemptAll_read [] 2 hof (Field.allSpelledBy_of_allBytes? hbytes)
  rw [List.append_nil] at hread
  refine ⟨⟨2, bytes⟩, _, ?_, hread, Decoder.finish_eq_ok_iff.mpr ⟨rfl, rfl⟩⟩
  exact (Decoder.parses_u16 _ _ _).mpr ⟨_, rfl, rfl, by rw [BigEndian.length_digits]; rfl⟩

section

variable {type : MessageType} {space : Nat} {before started : Buffer}

theorem cursor_of_start_eq_ok (hstart : start type space before = .ok () started) :
    started.cursor = headerSize := by
  rw [← Buffer.length_filled, filled_of_start_eq_ok hstart, List.length_append,
    BigEndian.length_digits]
  rfl

/-- A frame is made of the fields that can be written, where they are not too many. -/
theorem exists_finish_putEach {puts : List Field}
    (hstart : start type space before = .ok () started)
    (hsize : 2 + Field.totalSize (Field.writable puts) ≤ maxPayload) :
    Field.accepted puts (Field.putEach puts started).1 = Field.writable puts ∧
      ∃ bytes after, Field.allBytes? (Field.writable puts) = some bytes ∧
        finish (Field.putEach puts started).2 =
          .ok (FrameStream.frame (BigEndian.digits 2 type.code.toNat ++ bytes)) after := by
  have hcursor := cursor_of_start_eq_ok hstart
  obtain ⟨haccepted, bytes, hbytes, hfilled⟩ := Field.putEach_of_memory puts started (by
    rw [hcursor]
    simp only [headerSize, maxPayload, maxCapacity] at hsize ⊢
    omega)
  rw [← Field.length_of_allBytes? hbytes] at hsize
  rw [filled_of_start_eq_ok hstart, List.append_assoc] at hfilled
  obtain ⟨after, hfinish⟩ := finish_eq hfilled (by
    rw [List.length_append, BigEndian.length_digits]
    exact hsize)
  exact ⟨haccepted, bytes, after, hbytes, hfinish⟩

theorem totalSize_le_of_finish_putEach {puts : List Field} {after : Buffer} {frame : Bytes}
    (hstart : start type space before = .ok () started)
    (hfinish : finish (Field.putEach puts started).2 = .ok frame after) :
    2 + Field.totalSize (Field.writable puts) ≤ maxPayload := by
  have hcursor := cursor_of_start_eq_ok hstart
  have hleast := Field.min_le_cursor_putEach puts started
  have hlength := length_le_of_finish_eq_ok hfinish
  simp only [hcursor, headerSize, lengthSize, maxPayload] at hleast hlength ⊢
  omega

end

/-- Fields of any types and lengths, put one after the other into a message of any type, are read
back from its frame, whatever the buffer held before. A field fails to be put exactly if it is too
long, unless memory runs out, and then changes nothing. The frame is finished exactly if the fields
that can be put fit into it. It then holds the fields whose puts succeeded, and nothing else. -/
theorem fields_recovered (type : MessageType) (space : Nat) {before roomy : Buffer}
    (puts : List Field)
    (hspace : Encoder.reserve (min (space + headerSize) maxSize) before.reset = .ok () roomy)
    (hputs : ∀ n, .count n ∉ puts) :
    ∃ started, start type space before = .ok () started ∧
      (∀ front field back, puts = front ++ field :: back →
        let here := (Field.putEach front started).2
        (field.TooLong → ∃ e, field.put here = .error e here) ∧
        (¬ field.TooLong →
          2 * (headerSize + Field.totalSize (Field.writable front) + field.size) ≤ maxCapacity →
          ∃ after, field.put here = .ok () after) ∧
        (∀ e after, field.put here = .error e after →
          field.TooLong ∨ ∃ requested, e = .outOfMemory requested)) ∧
      ((∃ frame after, finish (Field.putEach puts started).2 = .ok frame after) ↔
        2 + Field.totalSize (Field.writable puts) ≤ maxPayload) ∧
      ∀ frame after, finish (Field.putEach puts started).2 = .ok frame after →
        Field.accepted puts (Field.putEach puts started).1 = Field.writable puts ∧
        ∃ bytes, Field.allBytes? (Field.writable puts) = some bytes ∧
          frame = FrameStream.frame (BigEndian.digits 2 type.code.toNat ++ bytes) ∧
          ReadBack type (Field.writable puts) (BigEndian.digits 2 type.code.toNat ++ bytes) := by
  obtain ⟨started, hstart⟩ := exists_start_of_reserve_eq_ok type hspace
  have hcursor := cursor_of_start_eq_ok hstart
  refine ⟨started, hstart, ?each, ⟨?fits, ?finished⟩, ?read⟩
  case each =>
    intro front field back _ here
    refine ⟨fun hlong => field.put_of_tooLong hlong here, fun hlong hmemory => ?_,
      fun e after h => Field.of_put_eq_error h⟩
    obtain ⟨-, bytes, hbytes, hfilled⟩ := Field.putEach_of_memory front started (by omega)
    have hhere : here.cursor = headerSize + Field.totalSize (Field.writable front) := by
      rw [Buffer.cursor_of_filled_append hfilled, hcursor, Field.length_of_allBytes? hbytes]
    obtain ⟨_, after, _, hput, _⟩ := Field.put_of_not_tooLong here hlong (by omega)
    exact ⟨after, hput⟩
  case fits =>
    intro h
    obtain ⟨frame, after, hfinish⟩ := h
    exact totalSize_le_of_finish_putEach hstart hfinish
  case finished =>
    intro hsize
    obtain ⟨-, _, after, _, hfinish⟩ := exists_finish_putEach hstart hsize
    exact ⟨_, after, hfinish⟩
  case read =>
    intro frame after hfinish
    obtain ⟨haccepted, bytes, made, hbytes, hmade⟩ :=
      exists_finish_putEach hstart (totalSize_le_of_finish_putEach hstart hfinish)
    rw [hfinish] at hmade
    refine ⟨haccepted, bytes, hbytes, (EStateM.Result.ok.inj hmade).1,
      readBack_of_allBytes? type ?_ hbytes⟩
    intro field hfield
    apply Field.isOf_type
    rintro n rfl
    exact hputs n (List.mem_of_mem_filter hfield)

/-- Fields of which one is too long, one is negative, and one is a text that is there though it has
no characters. -/
def assorted : List Field :=
  [.i32 (-65549), .blob (List.replicate 65536 0), .text none, .text (some ""), .bool true]

theorem writable_assorted : Field.writable assorted =
    [.i32 (-65549), .text none, .text (some ""), .bool true] := by
  have hlong : (Field.blob (List.replicate 65536 0)).TooLong := by
    simp only [Field.TooLong, List.length_replicate]
    omega
  have hnumber : ¬ (Field.i32 (-65549)).TooLong := id
  rw [assorted, Field.writable_cons_of_not_tooLong hnumber, Field.writable_cons_of_tooLong hlong]
  decide

/-- A buffer that something else was written to. -/
def stale : Buffer := ⟨#[222, 173, 190, 239, 66], 5, Nat.le_refl 5⟩

theorem fields_recovered_assorted :
    ∃ roomy started after,
      Encoder.reserve (min (0 + headerSize) maxSize) stale.reset = .ok () roomy ∧
      (∀ n, .count n ∉ assorted) ∧
      start .event 0 stale = .ok () started ∧
      Field.accepted assorted (Field.putEach assorted started).1 =
        [.i32 (-65549), .text none, .text (some ""), .bool true] ∧
      finish (Field.putEach assorted started).2 =
        .ok [0, 11, 0, 8, 255, 254, 255, 243, 255, 255, 0, 0, 1] after ∧
      ReadBack .event (Field.writable assorted)
        [0, 8, 255, 254, 255, 243, 255, 255, 0, 0, 1] := by
  have hspace : Encoder.reserve (min (0 + headerSize) maxSize) stale.reset =
      .ok () stale.reset := by rfl
  have hputs (n : Nat) : .count n ∉ assorted := by
    simp only [assorted, List.mem_cons, List.not_mem_nil, reduceCtorEq, or_self, not_false_eq_true]
  obtain ⟨started, hstart, -, hfinish, hread⟩ := fields_recovered .event 0 assorted hspace hputs
  have hsize : 2 + Field.totalSize (Field.writable assorted) ≤ maxPayload := by
    rw [writable_assorted]
    decide
  obtain ⟨frame, after, hframe⟩ := hfinish.mpr hsize
  obtain ⟨haccepted, bytes, hbytes, rfl, hbody⟩ := hread frame after hframe
  rw [writable_assorted] at haccepted
  rw [writable_assorted] at hbytes
  obtain rfl : [255, 254, 255, 243, 255, 255, 0, 0, 1] = bytes := Option.some.inj hbytes
  exact ⟨_, started, after, hspace, hputs, hstart, haccepted, hframe, hbody⟩

end Frame

end MeshControl
