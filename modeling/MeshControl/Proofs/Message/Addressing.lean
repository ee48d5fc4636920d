import MeshControl.Message.MeshPrefix
import MeshControl.Proofs.Text.Grouping

/-!
Prefixes as text and back. The address that a prefix begins is filled up with zeros, and these are
half of it, so they are in its longest run of zeros and its text ends in a double colon. What is
written in front of the slash therefore reads back as the address, and its first half is the prefix
(`MeshPrefix.read_render`). No text reads as more than a prefix can be long
(`MeshPrefix.length_le_of_read`).
-/

namespace MeshControl.MeshPrefix

theorem words_lt {bytes : Bytes} {word : Nat} (h : word ∈ words bytes) : word < 65536 := by
  induction bytes using words.induct with
  | case1 high low rest ih =>
    rw [words, List.mem_cons] at h
    rcases h with rfl | h
    · have hspan : BigEndian.span [high, low].length = 65536 := by simp [BigEndian.span]
      exact hspan ▸ BigEndian.value_lt [high, low]
    · exact ih h
  | case2 bytes hshort =>
    rw [words] at h
    · cases h
    · exact hshort

/-- Bytes in pairs are spelled by as many words. -/
theorem length_words {bytes : Bytes} {count : Nat} (h : bytes.length = 2 * count) :
    (words bytes).length = count := by
  induction count generalizing bytes with
  | zero =>
    obtain rfl := List.length_eq_zero_iff.mp h
    rfl
  | succ count ih =>
    match bytes, h with
    | high :: low :: rest, h =>
      have hrest : rest.length = 2 * count := by
        simp only [List.length_cons] at h
        omega
      rw [words, List.length_cons, ih hrest]

/-- Words spell the pairs of bytes that they were made of. -/
theorem flatMap_words {bytes : Bytes} {count : Nat} (h : bytes.length = 2 * count) :
    (words bytes).flatMap (BigEndian.digits 2) = bytes := by
  induction count generalizing bytes with
  | zero =>
    obtain rfl := List.length_eq_zero_iff.mp h
    rfl
  | succ count ih =>
    match bytes, h with
    | high :: low :: rest, h =>
      have hrest : rest.length = 2 * count := by
        simp only [List.length_cons] at h
        omega
      have hpair : BigEndian.digits 2 (BigEndian.value [high, low]) = [high, low] :=
        BigEndian.digits_value [high, low]
      rw [words, List.flatMap_cons, hpair, ih hrest]
      rfl

/-- The first half of the address that a prefix begins is the prefix. -/
theorem ofGroups?_groups (meshPrefix : MeshPrefix) :
    ofGroups? meshPrefix.groups = some meshPrefix := by
  have hwords : (words meshPrefix.bytes).length = 4 := length_words meshPrefix.length_bytes
  have hlength : meshPrefix.bytes.length = 2 * 4 := meshPrefix.length_bytes
  have hbytes := flatMap_words hlength
  rw [ofGroups?, groups, List.take_left' hwords, hbytes, ofBytes?_bytes]

/-- The zeros that the address of a prefix ends in are at least as many as the groups before. -/
theorem exists_front_groups (meshPrefix : MeshPrefix) : ∃ front count,
    meshPrefix.groups = front ++ List.replicate count 0 ∧ front.getLast? ≠ some 0 ∧
      (∀ group ∈ front, group < 65536) ∧ front.length ≤ count ∧ front.length + count = 8 := by
  obtain ⟨front, count, hwords, hfront⟩ := Text.Ipv6.exists_front (words meshPrefix.bytes)
  have hlength : front.length + count = 4 := by
    have hfour : (words meshPrefix.bytes).length = 4 := length_words meshPrefix.length_bytes
    simpa [hwords] using hfour
  refine ⟨front, count + 4, ?_, hfront, fun group h => ?_, by omega, by omega⟩
  · have hzeros : [0, 0, 0, 0] = List.replicate 4 0 := rfl
    rw [groups, hwords, List.append_assoc, hzeros, List.replicate_append_replicate]
  · exact words_lt (hwords ▸ List.mem_append_left _ h)

/-- The address that a prefix begins reads back from its text. -/
theorem read_render_groups (meshPrefix : MeshPrefix) :
    Text.Ipv6.read (Text.Ipv6.render meshPrefix.groups) = some meshPrefix.groups := by
  obtain ⟨front, count, hgroups, hfront, hlt, hlength, hsum⟩ := exists_front_groups meshPrefix
  rw [hgroups]
  exact Text.Ipv6.read_render hlt hfront hlength hsum

/-- Colons and digits are all that the address of a prefix is written with. -/
theorem mem_render_groups {meshPrefix : MeshPrefix} {c : Char}
    (h : c ∈ (Text.Ipv6.render meshPrefix.groups).toList) :
    c = ':' ∨ (Text.Hex.value? c).isSome := by
  obtain ⟨front, count, hgroups, hfront, -, hlength, hsum⟩ := exists_front_groups meshPrefix
  rw [hgroups] at h
  exact Text.Ipv6.mem_render hfront hlength (by omega) h

/-- Text splits at its first slash. -/
theorem splitLength_of_slash {address length : String} (h : '/' ∉ address.toList) :
    splitLength (address ++ "/" ++ length) = (address, length) := by
  have hlist : (address ++ "/" ++ length).toList = address.toList ++ '/' :: length.toList := by
    simp
  have hall : ∀ c ∈ address.toList, decide (c ≠ '/') = true := fun c hc =>
    decide_eq_true (ne_of_mem_of_not_mem hc h)
  unfold splitLength
  simp only [hlist, List.dropWhile_append_of_pos hall, List.takeWhile_append_of_pos hall]
  simp

/-- A prefix with a length that it can have reads back from its text. -/
theorem read_render (meshPrefix : MeshPrefix) {length : UInt8} (h : length.toNat ≤ maxLength) :
    read (meshPrefix.render length) = .ok (meshPrefix, length) := by
  have hslash : '/' ∉ (Text.Ipv6.render meshPrefix.groups).toList := fun hmem =>
    absurd (mem_render_groups hmem) (by decide)
  have hlength : Text.Decimal.readUpTo 255 (toString length.toNat) = .ok length.toNat :=
    Text.Decimal.readUpTo_toString (Nat.le_of_lt_succ length.toNat_lt)
  unfold read render
  simp only [splitLength_of_slash hslash, read_render_groups, Option.bind_some, ofGroups?_groups,
    hlength, if_neg (Nat.not_lt.mpr h), UInt8.ofNat_toNat]

/-- No text reads as more than a prefix can be long. -/
theorem length_le_of_read {text : String} {meshPrefix : MeshPrefix} {length : UInt8}
    (h : read text = .ok (meshPrefix, length)) : length.toNat ≤ maxLength := by
  rcases hsplit : splitLength text with ⟨address, spelled⟩
  unfold read at h
  simp only [hsplit] at h
  split at h
  · cases h
  · split at h
    · cases h
    · rename_i bits _
      split at h
      · cases h
      · rename_i hle
        cases h
        rw [UInt8.toNat_ofNat']
        exact Nat.le_trans (Nat.mod_le _ _) (Nat.not_lt.mp hle)

end MeshControl.MeshPrefix
