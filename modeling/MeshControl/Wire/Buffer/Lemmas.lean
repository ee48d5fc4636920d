import MeshControl.Wire.Buffer
/-!
What the operations of a buffer do to its filled bytes. Main statement: `append_eq_ok_iff` says when
appending succeeds, and that the filled bytes then are the old ones followed by the new ones.
-/

namespace MeshControl

theorem toList_overwrite_append (front : List UInt8) (bytes back : Bytes) (storage : Array UInt8)
    (hstorage : storage.toList = front ++ back) (hroom : bytes.length ≤ back.length) :
    (overwrite storage front.length bytes).toList =
      front ++ bytes ++ back.drop bytes.length := by
  induction bytes generalizing front back storage with
  | nil => simp [overwrite, hstorage]
  | cons byte rest ih =>
    cases back with
    | nil => simp at hroom
    | cons old back =>
      have hset : (storage.setIfInBounds front.length byte).toList =
          (front ++ [byte]) ++ back := by
        simp [hstorage]
      have h := ih (front ++ [byte]) back (storage.setIfInBounds front.length byte) hset
        (by simpa using hroom)
      simpa [overwrite] using h

namespace Buffer

/-- The storage is the filled bytes and what follows them. -/
theorem toList_storage (buffer : Buffer) :
    buffer.storage.toList = buffer.filled ++ buffer.storage.toList.drop buffer.cursor := by
  simp [filled]

@[simp] theorem filled_empty : empty.filled = [] := rfl

@[simp] theorem cursor_extend (buffer : Buffer) (capacity : Nat) :
    (buffer.extend capacity).cursor = buffer.cursor := rfl

/-- The cursor goes with the filled bytes. -/
theorem cursor_of_filled_append {before after : Buffer} {bytes : Bytes}
    (h : after.filled = before.filled ++ bytes) : after.cursor = before.cursor + bytes.length := by
  rw [← length_filled, h, List.length_append, length_filled]

/-- Extending the storage leaves the filled bytes alone. -/
@[simp] theorem filled_extend (buffer : Buffer) (capacity : Nat) :
    (buffer.extend capacity).filled = buffer.filled := by
  have hcursor := buffer.cursor_le
  simp only [filled, extend, Array.toList_extract, List.extract_eq_take_drop, List.drop_zero,
    Nat.sub_zero, Array.toList_append]
  rw [List.take_append_of_le_length (by simpa using hcursor)]

@[simp] theorem capacity_extend (buffer : Buffer) (capacity : Nat) :
    (buffer.extend capacity).capacity = max buffer.capacity capacity := by
  simp only [Buffer.capacity, extend, Array.size_append, Array.size_replicate]
  omega

@[simp] theorem capacity_fill (buffer : Buffer) (bytes : Bytes) :
    (buffer.fill bytes).capacity = buffer.capacity := by
  simp [Buffer.capacity, fill]

/-- Filling a buffer that has the room appends to the filled bytes. -/
theorem filled_fill {buffer : Buffer} {bytes : Bytes} (hroom : bytes.length ≤ buffer.room) :
    (buffer.fill bytes).filled = buffer.filled ++ bytes := by
  have hcursor := buffer.cursor_le
  simp only [room, Buffer.capacity] at hroom
  have h := toList_overwrite_append buffer.filled bytes
    (buffer.storage.toList.drop buffer.cursor) buffer.storage buffer.toList_storage
    (by simpa using hroom)
  rw [length_filled] at h
  have hend : min (buffer.cursor + bytes.length) buffer.storage.size =
      (buffer.filled ++ bytes).length := by
    simp only [List.length_append, length_filled]
    omega
  generalize buffer.filled = front at h hend ⊢
  simp only [filled, fill, size_overwrite, Array.toList_extract, List.extract_eq_take_drop,
    List.drop_zero, Nat.sub_zero, h, hend]
  exact List.take_left

theorem capacity_of_patch? {buffer patched : Buffer} {offset : Nat} {word : UInt16}
    (h : buffer.patch? offset word = some patched) : patched.capacity = buffer.capacity := by
  unfold patch? at h
  split at h
  · rw [← Option.some.inj h]
    simp only [Buffer.capacity, size_overwrite]
  · cases h

/-- A word that replaces two filled bytes leaves the others. -/
theorem exists_patch? {buffer : Buffer} {offset : Nat} (word : UInt16)
    (hfilled : offset + 2 ≤ buffer.cursor) :
    ∃ patched, buffer.patch? offset word = some patched ∧
      patched.filled = buffer.filled.take offset ++ BigEndian.digits 2 word.toNat ++
        buffer.filled.drop (offset + 2) := by
  have hcursor := buffer.cursor_le
  have hfits : offset + 2 ≤ buffer.capacity := Nat.le_trans hfilled hcursor
  simp only [patch?, if_pos hfits]
  refine ⟨_, rfl, ?_⟩
  -- The word is overwritten in the storage, and what is filled is as much of the storage as before.
  have hfront : (buffer.storage.toList.take offset).length = offset := by
    rw [List.length_take, Array.length_toList]
    omega
  have hover := toList_overwrite_append (buffer.storage.toList.take offset)
    (BigEndian.digits 2 word.toNat) (buffer.storage.toList.drop offset) buffer.storage
    (List.take_append_drop ..).symm (by
      rw [BigEndian.length_digits, List.length_drop, Array.length_toList]
      omega)
  rw [hfront, BigEndian.length_digits, List.drop_drop] at hover
  simp only [filled, Array.toList_extract, List.extract_eq_take_drop, List.drop_zero, Nat.sub_zero,
    hover]
  rw [List.take_append, List.take_of_length_le (by simp; omega), List.take_take,
    Nat.min_eq_left (by omega), List.drop_take]
  simp only [List.length_append, hfront, BigEndian.length_digits]

end Buffer

namespace Encoder

/-- Room that has been made is there, and the filled bytes are as before. -/
theorem of_reserve_eq_ok {additional : Nat} {before after : Buffer}
    (h : reserve additional before = .ok () after) :
    after.filled = before.filled ∧ after.cursor = before.cursor ∧
      additional ≤ after.room ∧ before.capacity ≤ after.capacity := by
  have hcursor := before.cursor_le
  simp only [reserve] at h
  split at h
  · simp at h
  · split at h
    · rename_i hfits
      simp only [EStateM.Result.ok.injEq, true_and] at h
      subst h
      refine ⟨rfl, rfl, ?_, Nat.le_refl _⟩
      simp only [Buffer.room]
      omega
    · split at h
      · simp at h
      · rename_i hfits hgrown
        simp only [EStateM.Result.ok.injEq, true_and] at h
        subst h
        refine ⟨Buffer.filled_extend _ _, rfl, ?_, ?_⟩
        · simp only [Buffer.room, Buffer.capacity_extend, Buffer.cursor_extend,
            Buffer.grownCapacity]
          omega
        · simp only [Buffer.capacity_extend]
          omega

/-- Room for a small number of bytes can always be made, whatever the buffer holds: a buffer that
must grow for them is itself small. -/
theorem exists_reserve_eq_ok {additional : Nat} {before : Buffer}
    (hsmall : 2 * (before.cursor + additional) ≤ maxCapacity) :
    ∃ after, reserve additional before = .ok () after := by
  have hfits : ¬ maxSize < before.cursor + additional := by
    simp only [maxSize, maxCapacity] at hsmall ⊢
    omega
  simp only [reserve, hfits, if_false]
  split
  · exact ⟨before, rfl⟩
  · rename_i hgrows
    have hgrown : ¬ maxCapacity <
        Buffer.grownCapacity before.capacity (before.cursor + additional) := by
      simp only [Buffer.grownCapacity]
      omega
    rw [if_neg hgrown]
    exact ⟨_, rfl⟩

/-- A failure to make room changes nothing. -/
theorem of_reserve_eq_error {additional : Nat} {before after : Buffer} {e : WireError}
    (h : reserve additional before = .error e after) : after = before := by
  simp only [reserve] at h
  split at h
  · simp only [EStateM.Result.error.injEq] at h
    exact h.2.symm
  · split at h
    · simp at h
    · split at h
      · simp only [EStateM.Result.error.injEq] at h
        exact h.2.symm
      · simp at h

/-- Appending succeeds exactly when room can be made. The filled bytes are followed by the new ones
then. -/
theorem append_eq_ok_iff {bytes : Bytes} {before after : Buffer} :
    append bytes before = .ok () after ↔
      ∃ grown, reserve bytes.length before = .ok () grown ∧ after = grown.fill bytes ∧
        after.filled = before.filled ++ bytes := by
  unfold append
  constructor
  · intro h
    split at h
    · rename_i grown hreserve
      simp only [EStateM.Result.ok.injEq, true_and] at h
      obtain ⟨hfilled, -, hroom, -⟩ := of_reserve_eq_ok hreserve
      refine ⟨grown, hreserve, h.symm, ?_⟩
      rw [← h, Buffer.filled_fill hroom, hfilled]
    · simp at h
  · rintro ⟨grown, hreserve, rfl, -⟩
    rw [hreserve]

end Encoder

theorem Buffer.filled_withCapacity {capacity : Nat} {buffer : Buffer}
    (h : Buffer.withCapacity capacity = .ok buffer) : buffer.filled = [] := by
  unfold withCapacity at h
  split at h
  · rename_i grown hreserve
    obtain rfl : grown = buffer := by simpa using h
    exact (Encoder.of_reserve_eq_ok hreserve).1
  · simp at h

end MeshControl
