/-!
Unsigned numbers as bytes, most significant byte first. Main statements: `value_digits` reads a
written number back when it fits its width, and `digits_value` writes the bytes back that a number
was read from, so a fixed width has one spelling for each number.
-/

namespace MeshControl

/-- A sequence of octets. -/
abbrev Bytes := List UInt8

namespace BigEndian

/-- The number that a sequence of bytes spells, most significant byte first. -/
def value (bytes : Bytes) : Nat :=
  bytes.foldl (fun sum byte => sum * 256 + byte.toNat) 0

/-- The last `width` base-256 digits of a number, most significant first. -/
def digits : Nat → Nat → Bytes
  | 0, _ => []
  | width + 1, n => digits width (n / 256) ++ [UInt8.ofNat n]

/-- The number of numbers that `width` bytes can spell. -/
def span : Nat → Nat
  | 0 => 1
  | width + 1 => span width * 256

@[simp] theorem value_nil : value [] = 0 := rfl

@[simp] theorem value_snoc (bytes : Bytes) (byte : UInt8) :
    value (bytes ++ [byte]) = value bytes * 256 + byte.toNat := by
  simp [value, List.foldl_append]

@[simp] theorem length_digits (width n : Nat) : (digits width n).length = width := by
  induction width generalizing n with
  | zero => rfl
  | succ width ih => simp [digits, ih]

/-- A number that fits the width reads back from its digits. -/
theorem value_digits {width n : Nat} (h : n < span width) : value (digits width n) = n := by
  induction width generalizing n with
  | zero =>
    have hzero : n = 0 := Nat.lt_one_iff.mp h
    simp [digits, hzero]
  | succ width ih =>
    have hn : n / 256 < span width := by
      rw [Nat.div_lt_iff_lt_mul (by decide)]
      exact h
    simp only [digits, value_snoc, ih hn, UInt8.toNat_ofNat']
    omega

private theorem exists_snoc {bytes : Bytes} (h : 0 < bytes.length) :
    ∃ front last, bytes = front ++ [last] :=
  ⟨bytes.dropLast, bytes.getLast (List.ne_nil_of_length_pos h),
    (List.dropLast_concat_getLast _).symm⟩

/-- Bytes are the digits of the number that they spell. -/
theorem digits_value (bytes : Bytes) : digits bytes.length (value bytes) = bytes := by
  induction h : bytes.length generalizing bytes with
  | zero => simp [digits, List.eq_nil_of_length_eq_zero h]
  | succ width ih =>
    obtain ⟨front, last, rfl⟩ := exists_snoc (show 0 < bytes.length by omega)
    have hlen : front.length = width := by simpa using h
    have hlast : last.toNat < 256 := last.toNat_lt
    have hdiv : (value front * 256 + last.toNat) / 256 = value front := by omega
    have hbyte : UInt8.ofNat (value front * 256 + last.toNat) = last := by
      apply UInt8.toNat_inj.mp
      simp only [UInt8.toNat_ofNat']
      omega
    simp [digits, hdiv, hbyte, ih front hlen]

/-- Bytes spell one of the numbers that their count can spell. -/
theorem value_lt (bytes : Bytes) : value bytes < span bytes.length := by
  induction h : bytes.length generalizing bytes with
  | zero => simp [List.eq_nil_of_length_eq_zero h, span]
  | succ width ih =>
    obtain ⟨front, last, rfl⟩ := exists_snoc (show 0 < bytes.length by omega)
    have hlen : front.length = width := by simpa using h
    have hfront := ih front hlen
    have hlast : last.toNat < 256 := last.toNat_lt
    simp only [value_snoc, span]
    omega

end BigEndian

end MeshControl
