import MeshControl.Text.Hex

/-!
What hexadecimal text spells. `Hex.Spells` says it without a reader: two digits to a byte, the high
half first, each digit in either case. Reading pairs of digits gives the bytes that the text spells
(`pairs?_eq_some_iff`) and fails where one digit is left over or a character is no digit
(`pairs?_eq_none_iff`). A dump spells its bytes once its colons are gone (`filter_dump`), so it
reads back (`read_dump`).
-/

namespace MeshControl.Text.Hex

/-- The digits, each at the place of its value. -/
def lowerDigits : List Char :=
  ['0', '1', '2', '3', '4', '5', '6', '7', '8', '9', 'a', 'b', 'c', 'd', 'e', 'f']

def upperDigits : List Char :=
  ['0', '1', '2', '3', '4', '5', '6', '7', '8', '9', 'A', 'B', 'C', 'D', 'E', 'F']

/-- A character is a digit for a value, in either case. -/
def Denotes (c : Char) (value : Nat) : Prop :=
  lowerDigits[value]? = some c ∨ upperDigits[value]? = some c

instance (c : Char) (value : Nat) : Decidable (Denotes c value) :=
  inferInstanceAs (Decidable (_ ∨ _))

/-- Text spells bytes with two digits to a byte, the high half first. -/
inductive Spells : List Char → Bytes → Prop where
  | nil : Spells [] []
  | pair {high low : Char} {rest : List Char} {byte : UInt8} {bytes : Bytes}
    (hhigh : Denotes high (byte.toNat / 16)) (hlow : Denotes low (byte.toNat % 16))
    (hrest : Spells rest bytes) : Spells (high :: low :: rest) (byte :: bytes)

/-- A character that denotes nothing. -/
def IsForeign (c : Char) : Prop := ∀ value, ¬ Denotes c value

theorem Denotes.lt {c : Char} {value : Nat} (h : Denotes c value) : value < 16 := by
  rcases h with h | h
  · exact (List.getElem?_eq_some_iff.mp h).1
  · exact (List.getElem?_eq_some_iff.mp h).1

/-- The value that is read off a digit is the one that it denotes. -/
theorem value?_eq_some_iff {c : Char} {value : Nat} : value? c = some value ↔ Denotes c value := by
  constructor
  · intro h
    have hsmall : c.toNat < 128 := by
      unfold value? at h
      split at h
      · exact Nat.lt_of_le_of_lt (‹_ ∧ _›).2 (by decide : '9'.toNat < 128)
      · split at h
        · exact Nat.lt_of_le_of_lt (‹_ ∧ _›).2 (by decide : 'f'.toNat < 128)
        · split at h
          · exact Nat.lt_of_le_of_lt (‹_ ∧ _›).2 (by decide : 'F'.toNat < 128)
          · cases h
    have hall : ∀ code : Fin 128, (value? (Char.ofNat code)).all fun value =>
        decide (Denotes (Char.ofNat code) value) := by decide
    have hchar := hall ⟨c.toNat, hsmall⟩
    simp only [Char.ofNat_toNat, h, Option.all_some, decide_eq_true_eq] at hchar
    exact hchar
  · intro h
    have hall : ∀ place : Fin 16, value? lowerDigits[place.val] = some place.val ∧
        value? upperDigits[place.val] = some place.val := by decide
    obtain ⟨hlower, hupper⟩ := hall ⟨value, h.lt⟩
    rcases h with h | h
    · obtain ⟨hbound, rfl⟩ := List.getElem?_eq_some_iff.mp h
      exact hlower
    · obtain ⟨hbound, rfl⟩ := List.getElem?_eq_some_iff.mp h
      exact hupper

theorem value?_eq_none_iff {c : Char} : value? c = none ↔ IsForeign c := by
  rw [Option.eq_none_iff_forall_ne_some]
  exact forall_congr' fun value => not_congr value?_eq_some_iff

/-- A byte is made of the halves that its digits denote. -/
theorem eq_ofNat_iff {byte : UInt8} {high low : Nat} (hhigh : high < 16) (hlow : low < 16) :
    UInt8.ofNat (16 * high + low) = byte ↔ byte.toNat / 16 = high ∧ byte.toNat % 16 = low := by
  have hbyte := byte.toNat_lt
  rw [← UInt8.toNat_inj, UInt8.toNat_ofNat']
  omega

/-- Pairs of digits are read as the bytes that they spell. -/
theorem pairs?_eq_some_iff {digits : List Char} {bytes : Bytes} :
    pairs? digits = some bytes ↔ Spells digits bytes := by
  constructor
  · intro h
    induction digits using pairs?.induct generalizing bytes with
    | case1 =>
      obtain rfl := Option.some.inj h
      exact .nil
    | case2 last => cases h
    | case3 high low rest highValue lowValue hlow hhigh ih =>
      rw [pairs?, hhigh, hlow] at h
      obtain ⟨others, hothers, rfl⟩ := Option.map_eq_some_iff.mp h
      have hdigits := value?_eq_some_iff.mp hhigh
      have hdigits' := value?_eq_some_iff.mp hlow
      obtain ⟨hdiv, hmod⟩ := (eq_ofNat_iff hdigits.lt hdigits'.lt).mp rfl
      refine .pair ?_ ?_ (ih hothers)
      · rwa [hdiv]
      · rwa [hmod]
    | case4 high low rest hnone =>
      rw [pairs?] at h
      split at h
      · exact (hnone _ _ ‹_› ‹_›).elim
      · cases h
  · intro h
    induction h with
    | nil => rfl
    | @pair high low rest byte bytes hhigh hlow _ ih =>
      have hbyte := (eq_ofNat_iff hhigh.lt hlow.lt).mpr ⟨rfl, rfl⟩
      rw [pairs?, value?_eq_some_iff.mpr hhigh, value?_eq_some_iff.mpr hlow]
      simp only [ih, Option.map_some, hbyte]

/-- Reading pairs of digits fails at a digit that is left over, or at a character that is none. -/
theorem pairs?_eq_none_iff {digits : List Char} :
    pairs? digits = none ↔ digits.length % 2 = 1 ∨ ∃ c ∈ digits, IsForeign c := by
  induction digits using pairs?.induct with
  | case1 => simp [pairs?]
  | case2 last => simp [pairs?]
  | case3 high low rest highValue lowValue hlow hhigh ih =>
    have hfirst : ¬ IsForeign high := fun h => h _ (value?_eq_some_iff.mp hhigh)
    have hsecond : ¬ IsForeign low := fun h => h _ (value?_eq_some_iff.mp hlow)
    rw [pairs?, hhigh, hlow]
    simp only [Option.map_eq_none_iff, ih, List.length_cons, List.mem_cons, or_and_right, exists_or,
      exists_eq_left, hfirst, hsecond, false_or]
    exact or_congr_left (by omega)
  | case4 high low rest hnone =>
    have hforeign : IsForeign high ∨ IsForeign low := by
      rw [← value?_eq_none_iff, ← value?_eq_none_iff]
      cases hhigh : value? high with
      | none => exact .inl rfl
      | some first =>
        cases hlow : value? low with
        | none => exact .inr rfl
        | some second => exact absurd hlow (hnone first second hhigh)
    have hpairs : pairs? (high :: low :: rest) = none := by
      rw [pairs?]
      split
      · exact (hnone _ _ ‹_› ‹_›).elim
      · rfl
    refine iff_of_true hpairs (.inr ?_)
    rcases hforeign with h | h
    · exact ⟨high, by simp, h⟩
    · exact ⟨low, by simp, h⟩

/-- Text reads as the bytes that it spells without its colons. -/
theorem read_eq_ok_iff {text : String} {bytes : Bytes} :
    read text = .ok bytes ↔ Spells (text.toList.filter (· ≠ ':')) bytes := by
  rw [← pairs?_eq_some_iff]
  unfold read
  generalize text.toList.filter (· ≠ ':') = digits
  cases hpairs : pairs? digits <;> simp [hpairs]

/-- Text is flawed when, without its colons, a digit is left over or a character is none. -/
theorem exists_read_eq_error_iff {text : String} : (∃ flaw, read text = .error flaw) ↔
    (text.toList.filter (· ≠ ':')).length % 2 = 1 ∨
      ∃ c ∈ text.toList.filter (· ≠ ':'), IsForeign c := by
  rw [← pairs?_eq_none_iff]
  unfold read
  generalize text.toList.filter (· ≠ ':') = digits
  cases hpairs : pairs? digits <;> simp [hpairs]

theorem digit_ne_colon {n : Nat} (h : n < 16) : digit n ≠ ':' := by
  have hall : ∀ value : Fin 16, digit value ≠ ':' := by decide
  exact hall ⟨n, h⟩

theorem colon_notMem_pair (byte : UInt8) : ':' ∉ pair byte := by
  have hbyte := byte.toNat_lt
  have hhigh := digit_ne_colon (n := byte.toNat / 16) (by omega)
  have hlow := digit_ne_colon (n := byte.toNat % 16) (by omega)
  simp [pair, hhigh.symm, hlow.symm]

theorem filter_pair (byte : UInt8) : (pair byte).filter (· ≠ ':') = pair byte := by
  rw [List.filter_eq_self]
  intro c hc
  rw [decide_eq_true_eq]
  rintro rfl
  exact colon_notMem_pair byte hc

/-- A dump without its colons is the digits of its bytes. -/
theorem filter_dump (bytes : Bytes) : (dump bytes).toList.filter (· ≠ ':') = spell bytes := by
  induction bytes with
  | nil => rfl
  | cons byte rest ih =>
    cases rest with
    | nil =>
      have hdump : (dump [byte]).toList = pair byte := by simp [dump]
      rw [hdump, filter_pair]
      simp [spell]
    | cons next others =>
      have hdump : (dump (byte :: next :: others)).toList =
          pair byte ++ ':' :: (dump (next :: others)).toList := by
        simp [dump, String.toList_intercalate]
      rw [hdump, List.filter_append, filter_pair, List.filter_cons_of_neg (by simp), ih]
      simp [spell]

/-- Digits and colons are all that a dump is made of. -/
theorem mem_dump {bytes : Bytes} {c : Char} (h : c ∈ (dump bytes).toList) :
    c = ':' ∨ (value? c).isSome := by
  by_cases hc : c = ':'
  · exact .inl hc
  · have hspell : c ∈ spell bytes := by
      rw [← filter_dump, List.mem_filter]
      exact ⟨h, decide_eq_true hc⟩
    obtain ⟨byte, -, hpair⟩ := List.mem_flatMap.mp hspell
    have hbyte := byte.toNat_lt
    have hhigh := value?_digit (n := byte.toNat / 16) (by omega)
    have hlow := value?_digit (n := byte.toNat % 16) (by omega)
    simp only [pair, List.mem_cons, List.not_mem_nil, or_false] at hpair
    rcases hpair with rfl | rfl
    · exact .inr (by rw [hhigh]; rfl)
    · exact .inr (by rw [hlow]; rfl)

/-- A dump reads as its bytes. -/
theorem read_dump (bytes : Bytes) : read (dump bytes) = .ok bytes := by
  rw [read_eq_ok_iff, filter_dump, ← pairs?_eq_some_iff, pairs?_spell]

end MeshControl.Text.Hex
