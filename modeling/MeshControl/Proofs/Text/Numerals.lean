import MeshControl.Text.Decimal

/-!
Written numbers read back. The digits of a number in any base stand for values that make it up
(`exists_values_toDigits`); decimal readers with a limit give a written number back that is within
it, whether or not they allow a sign in front.
-/

namespace MeshControl.Text

/-- The digits of a number stand for values that make the number up, most significant first. -/
theorem exists_values_toDigits {base : Nat} {value? : Char → Option Nat} (hbase : 1 < base)
    (hvalue : ∀ d < base, value? d.digitChar = some d) (n : Nat) :
    ∃ values : List Nat, (Nat.toDigits base n).map value? = values.map some ∧
      values.foldl (base * · + ·) 0 = n := by
  induction n using Nat.strongRecOn with
  | ind n ih =>
    rw [Nat.toDigits_eq_if hbase]
    split
    · exact ⟨[n], by simp [hvalue n ‹_›], by simp⟩
    · obtain ⟨values, hvalues, hsum⟩ := ih (n / base) (Nat.div_lt_self (by omega) hbase)
      have hlast := hvalue (n % base) (Nat.mod_lt _ (by omega))
      refine ⟨values ++ [n % base], by simp [hvalues, hlast], ?_⟩
      rw [List.foldl_append, hsum]
      exact Nat.div_add_mod n base

namespace Decimal

theorem digit?_digitChar : ∀ d < 10, digit? d.digitChar = some d := by decide

theorem le_foldl (values : List Nat) (sum : Nat) : sum ≤ values.foldl (10 * · + ·) sum := by
  induction values generalizing sum with
  | nil => exact Nat.le_refl _
  | cons value rest ih =>
    have hrest := ih (10 * sum + value)
    rw [List.foldl_cons]
    omega

/-- Digits are read as the number that their values make up, if it is within the limit. -/
theorem digitsUpTo_of_values {limit sum : Nat} {digits : List Char} {values : List Nat}
    (hvalues : digits.map digit? = values.map some)
    (hlimit : values.foldl (10 * · + ·) sum ≤ limit) :
    digitsUpTo limit sum digits = .ok (values.foldl (10 * · + ·) sum) := by
  induction values generalizing sum digits with
  | nil =>
    obtain rfl := List.map_eq_nil_iff.mp hvalues
    rfl
  | cons value rest ih =>
    obtain ⟨c, others, rfl, hc, hothers⟩ := List.map_eq_cons_iff.mp hvalues
    rw [List.foldl_cons] at hlimit ⊢
    have hnext : sum * 10 + value ≤ limit := by
      have hle := le_foldl rest (10 * sum + value)
      omega
    simp only [digitsUpTo, hc, if_pos hnext]
    rw [Nat.mul_comm sum 10]
    exact ih hothers hlimit

/-- A written number has no sign. -/
theorem toList_toString (n : Nat) : ∃ c rest, (toString n).toList = c :: rest ∧ c.isDigit ∧
    c :: rest = Nat.toDigits 10 n := by
  have hlist : (toString n).toList = Nat.toDigits 10 n := Nat.toList_repr
  cases hdigits : Nat.toDigits 10 n with
  | nil => exact absurd hdigits Nat.toDigits_ne_nil
  | cons c rest =>
    refine ⟨c, rest, hlist.trans hdigits, ?_, rfl⟩
    exact Nat.isDigit_of_mem_toDigits (by decide) (by decide) (hdigits ▸ List.mem_cons_self)

/-- A written number within the limit reads back. -/
theorem readUpTo_toString {limit n : Nat} (h : n ≤ limit) :
    readUpTo limit (toString n) = .ok n := by
  obtain ⟨c, rest, hlist, hdigit, hdigits⟩ := toList_toString n
  obtain ⟨values, hvalues, hsum⟩ := exists_values_toDigits (by decide) digit?_digitChar n
  have hread : digitsUpTo limit 0 (c :: rest) = .ok n := by
    rw [← hsum]
    exact digitsUpTo_of_values (hdigits ▸ hvalues) (hsum ▸ h)
  have hplus : c ≠ '+' := by
    rintro rfl
    exact absurd hdigit (by decide)
  unfold readUpTo
  rw [hlist]
  split
  · cases ‹_›
  · exact absurd (List.cons.inj ‹_›).1 hplus
  · exact absurd (List.cons.inj ‹_›).1 hplus
  · exact hread

theorem readSignedUpTo_toString {limit n : Nat} (h : n ≤ limit) :
    readSignedUpTo limit (toString n) = .ok n := by
  obtain ⟨c, rest, hlist, hdigit, -⟩ := toList_toString n
  have hminus : c ≠ '-' := by
    rintro rfl
    exact absurd hdigit (by decide)
  unfold readSignedUpTo
  split
  · rw [hlist] at *
    exact absurd (List.cons.inj ‹_›).1 hminus
  · exact readUpTo_toString h

end Decimal

end MeshControl.Text
