import MeshControl.Wire.Field

/-!
Which bytes spell which fields, as a relation that mentions no reader, and what it is for a decoder
to parse such a relation: it succeeds exactly on the spellings, with anything behind them, and moves
past exactly the spelling (`Decoder.Parses`). The rules for the ways in which decoders are put
together come first, then the decoders of the fields. A truth value has many spellings, and every
other field at most one.
-/

namespace MeshControl

section

variable {ε σ α β : Type} {before after : σ} {value : β}

theorem bind_of_eq_ok {first : EStateM ε σ α} {next : α → EStateM ε σ β} {given : α} {middle : σ}
    (h : first before = .ok given middle) : (first >>= next) before = next given middle := by
  change EStateM.bind first next before = _
  simp only [EStateM.bind, h]

theorem bind_of_eq_error {first : EStateM ε σ α} {next : α → EStateM ε σ β} {e : ε} {middle : σ}
    (h : first before = .error e middle) : (first >>= next) before = .error e middle := by
  change EStateM.bind first next before = _
  simp only [EStateM.bind, h]

theorem bind_eq_ok_iff {first : EStateM ε σ α} {next : α → EStateM ε σ β} :
    (first >>= next) before = .ok value after ↔
      ∃ given middle, first before = .ok given middle ∧ next given middle = .ok value after := by
  change EStateM.bind first next before = .ok value after ↔ _
  unfold EStateM.bind
  cases first before with
  | ok given middle =>
    constructor
    · exact fun h => ⟨given, middle, rfl, h⟩
    · intro hgiven
      obtain ⟨_, _, heq, h⟩ := hgiven
      cases heq
      exact h
  | error e middle => simp

theorem map_eq_ok_iff {step : EStateM ε σ α} {f : α → β} :
    (f <$> step) before = .ok value after ↔
      ∃ given, step before = .ok given after ∧ value = f given := by
  change EStateM.map f step before = .ok value after ↔ _
  unfold EStateM.map
  cases step before with
  | ok given middle =>
    simp only [EStateM.Result.ok.injEq]
    constructor
    · intro h
      obtain ⟨rfl, rfl⟩ := h
      exact ⟨given, ⟨rfl, rfl⟩, rfl⟩
    · intro h
      obtain ⟨_, ⟨rfl, rfl⟩, rfl⟩ := h
      exact ⟨rfl, rfl⟩
  | error e middle => simp

end

/-- Bytes of a width and the number that they spell determine each other. -/
theorem BigEndian.eq_value_iff {width n : Nat} {bytes : Bytes} :
    bytes.length = width ∧ n = value bytes ↔ n < span width ∧ bytes = digits width n := by
  constructor
  · intro h
    obtain ⟨rfl, rfl⟩ := h
    exact ⟨value_lt bytes, (digits_value bytes).symm⟩
  · intro h
    obtain ⟨hn, rfl⟩ := h
    exact ⟨length_digits width n, (value_digits hn).symm⟩

theorem BigEndian.digits_u16 {bytes : Bytes} (hlength : bytes.length = 2) :
    digits 2 (UInt16.ofNat (value bytes)).toNat = bytes := by
  obtain ⟨hvalue, hbytes⟩ := eq_value_iff.mp ⟨hlength, rfl⟩
  rw [UInt16.toNat_ofNat_of_lt' hvalue]
  exact hbytes.symm

theorem BigEndian.digits_u32 {bytes : Bytes} (hlength : bytes.length = 4) :
    digits 4 (UInt32.ofNat (value bytes)).toNat = bytes := by
  obtain ⟨hvalue, hbytes⟩ := eq_value_iff.mp ⟨hlength, rfl⟩
  rw [UInt32.toNat_ofNat_of_lt' hvalue]
  exact hbytes.symm

namespace Field

/-- Bytes that a field is read from. -/
def SpelledBy : Field → Bytes → Prop
  | u8 value, bytes => bytes = [value]
  | u16 value, bytes => bytes = BigEndian.digits 2 value.toNat
  | u32 value, bytes => bytes = BigEndian.digits 4 value.toNat
  | i32 value, bytes => bytes = BigEndian.digits 4 value.toUInt32.toNat
  | bool value, bytes => ∃ byte : UInt8, bytes = [byte] ∧ value = (byte != 0)
  | blob value, bytes => value.length ≤ 65535 ∧ bytes = BigEndian.digits 2 value.length ++ value
  | text none, bytes => bytes = BigEndian.digits 2 65535
  | text (some value), bytes =>
    (Utf8.write value).length < 65535 ∧
      bytes = BigEndian.digits 2 (Utf8.write value).length ++ Utf8.write value
  | count value, bytes => value ≤ 65535 ∧ bytes = BigEndian.digits 2 value

/-- Bytes that fields are read from, one behind the other. -/
def AllSpelledBy : List Field → Bytes → Prop
  | [], bytes => bytes = []
  | field :: fields, bytes =>
    ∃ front back, field.SpelledBy front ∧ AllSpelledBy fields back ∧ bytes = front ++ back

theorem allSpelledBy_append {first second : List Field} {bytes : Bytes} :
    AllSpelledBy (first ++ second) bytes ↔
      ∃ front back, AllSpelledBy first front ∧ AllSpelledBy second back ∧
        bytes = front ++ back := by
  induction first generalizing bytes with
  | nil => simp [AllSpelledBy]
  | cons field fields ih =>
    simp only [List.cons_append, AllSpelledBy, ih]
    constructor
    · intro h
      obtain ⟨front, _, hfield, ⟨middle, back, hfields, hsecond, rfl⟩, rfl⟩ := h
      exact ⟨front ++ middle, back, ⟨front, middle, hfield, hfields, rfl⟩, hsecond,
        (List.append_assoc ..).symm⟩
    · intro h
      obtain ⟨_, back, ⟨front, middle, hfield, hfields, rfl⟩, hsecond, rfl⟩ := h
      exact ⟨front, middle ++ back, hfield, ⟨middle, back, hfields, hsecond, rfl⟩,
        List.append_assoc ..⟩

/-- The bytes that a field is written as spell it. -/
theorem spelledBy_of_bytes? {field : Field} {bytes : Bytes} (h : field.bytes? = some bytes) :
    field.SpelledBy bytes := by
  cases field with
  | u8 value | u16 value | u32 value | i32 value =>
    simp only [bytes?, pieces, List.flatten_cons, List.flatten_nil, List.append_nil,
      Option.some.injEq] at h
    exact h.symm
  | bool value =>
    simp only [bytes?, pieces, List.flatten_cons, List.flatten_nil, List.append_nil,
      Option.some.injEq] at h
    exact ⟨_, h.symm, by cases value <;> rfl⟩
  | blob value =>
    unfold bytes? pieces at h
    by_cases hsize : value.length ≤ 65535
    · simp only [hsize, if_true, List.flatten_cons, List.flatten_nil, List.append_nil,
        Option.some.injEq] at h
      exact ⟨hsize, h.symm⟩
    · simp [hsize] at h
  | text value =>
    cases value with
    | none =>
      simp only [bytes?, pieces, List.flatten_cons, List.flatten_nil, List.append_nil,
        Option.some.injEq] at h
      exact h.symm
    | some value =>
      unfold bytes? pieces at h
      by_cases hsize : (Utf8.write value).length < 65535
      · simp only [hsize, if_true, List.flatten_cons, List.flatten_nil, List.append_nil,
          Option.some.injEq] at h
        exact ⟨hsize, h.symm⟩
      · simp [hsize] at h
  | count value =>
    unfold bytes? pieces at h
    by_cases hsize : value ≤ 65535
    · simp only [hsize, if_true, List.flatten_cons, List.flatten_nil, List.append_nil,
        Option.some.injEq] at h
      exact ⟨hsize, h.symm⟩
    · simp [hsize] at h

end Field

/-- The decoder reads a value exactly where one of the value's spellings comes next, and moves past
that spelling and no further. -/
def Decoder.Parses {α : Type} (decoder : Decoder α) (spelling : α → Bytes → Prop) : Prop :=
  ∀ (reader after : Reader) (value : α), decoder reader = .ok value after ↔
    ∃ bytes, spelling value bytes ∧ reader.rest = bytes ++ after.rest ∧
      after.position = reader.position + bytes.length

namespace Decoder

variable {α β : Type}

theorem Parses.congr {decoder : Decoder α} {spelling other : α → Bytes → Prop}
    (hdecoder : decoder.Parses spelling)
    (hiff : ∀ value bytes, spelling value bytes ↔ other value bytes) : decoder.Parses other := by
  intro reader after value
  rw [hdecoder]
  simp only [hiff]

theorem parses_pure (given : α) :
    Parses (pure given) fun value bytes => value = given ∧ bytes = [] := by
  intro reader after value
  change EStateM.Result.ok given reader = .ok value after ↔ _
  simp only [EStateM.Result.ok.injEq]
  constructor
  · intro h
    obtain ⟨rfl, rfl⟩ := h
    exact ⟨[], ⟨rfl, rfl⟩, rfl, rfl⟩
  · intro h
    obtain ⟨bytes, ⟨rfl, rfl⟩, hrest, hposition⟩ := h
    cases reader
    cases after
    simp_all

/-- A failure parses what has no spellings. -/
theorem parses_throw (e : WireError) {spelling : α → Bytes → Prop}
    (hnone : ∀ value bytes, ¬ spelling value bytes) : Parses (throw e) spelling := by
  intro reader after value
  change EStateM.Result.error e reader = .ok value after ↔ _
  constructor
  · intro h
    cases h
  · intro h
    obtain ⟨bytes, hspelling, -⟩ := h
    exact absurd hspelling (hnone value bytes)

theorem Parses.bind {decoder : Decoder α} {next : α → Decoder β} {spelling : α → Bytes → Prop}
    {nextSpelling : α → β → Bytes → Prop} (hdecoder : decoder.Parses spelling)
    (hnext : ∀ given, (next given).Parses (nextSpelling given)) :
    (decoder >>= next).Parses fun value bytes => ∃ given front back,
      spelling given front ∧ nextSpelling given value back ∧ bytes = front ++ back := by
  intro reader after value
  rw [bind_eq_ok_iff]
  constructor
  · intro h
    obtain ⟨given, middle, hfirst, hsecond⟩ := h
    obtain ⟨front, hfront, hrest, hposition⟩ := (hdecoder _ _ _).mp hfirst
    obtain ⟨back, hback, hlast, hend⟩ := (hnext given _ _ _).mp hsecond
    refine ⟨front ++ back, ⟨given, front, back, hfront, hback, rfl⟩, ?_, ?_⟩
    · rw [hrest, hlast, List.append_assoc]
    · rw [hend, hposition, List.length_append]
      omega
  · intro h
    obtain ⟨_, ⟨given, front, back, hfront, hback, rfl⟩, hrest, hposition⟩ := h
    let middle : Reader := ⟨reader.position + front.length, back ++ after.rest⟩
    refine ⟨given, middle, (hdecoder _ _ _).mpr ⟨front, hfront, ?_, rfl⟩,
      (hnext given _ _ _).mpr ⟨back, hback, rfl, ?_⟩⟩
    · rw [hrest, List.append_assoc]
    · rw [hposition, List.length_append]
      simp only [middle]
      omega

theorem Parses.map {decoder : Decoder α} {spelling : α → Bytes → Prop} (f : α → β)
    (hdecoder : decoder.Parses spelling) :
    (f <$> decoder).Parses fun value bytes => ∃ given, spelling given bytes ∧ value = f given := by
  intro reader after value
  rw [map_eq_ok_iff]
  constructor
  · intro h
    obtain ⟨given, hgiven, rfl⟩ := h
    obtain ⟨bytes, hbytes, hrest⟩ := (hdecoder _ _ _).mp hgiven
    exact ⟨bytes, ⟨given, hbytes, rfl⟩, hrest⟩
  · intro h
    obtain ⟨bytes, ⟨given, hbytes, rfl⟩, hrest⟩ := h
    exact ⟨given, (hdecoder _ _ _).mpr ⟨bytes, hbytes, hrest⟩, rfl⟩

theorem parses_take (length : Nat) :
    Parses (take length) fun value bytes => bytes.length = length ∧ value = bytes := by
  intro reader after value
  simp only [take]
  constructor
  · intro h
    by_cases hlength : (reader.rest.take length).length = length
    · rw [if_pos hlength, EStateM.Result.ok.injEq] at h
      obtain ⟨rfl, rfl⟩ := h
      exact ⟨_, ⟨hlength, rfl⟩, (List.take_append_drop ..).symm, by rw [hlength]⟩
    · rw [if_neg hlength] at h
      cases h
  · intro hgiven
    obtain ⟨bytes, ⟨rfl, rfl⟩, hrest, hposition⟩ := hgiven
    have htake : reader.rest.take value.length = value := by rw [hrest, List.take_left]
    have hdrop : reader.rest.drop value.length = after.rest := by rw [hrest, List.drop_left]
    rw [htake, if_pos rfl, hdrop, ← hposition]

theorem parses_number (width : Nat) :
    (number width).Parses fun value bytes =>
      value < BigEndian.span width ∧ bytes = BigEndian.digits width value := by
  apply ((parses_take width).map BigEndian.value).congr
  intro value bytes
  rw [← BigEndian.eq_value_iff]
  constructor
  · intro h
    obtain ⟨_, ⟨hlength, rfl⟩, hvalue⟩ := h
    exact ⟨hlength, hvalue⟩
  · intro h
    obtain ⟨hlength, hvalue⟩ := h
    exact ⟨bytes, ⟨hlength, rfl⟩, hvalue⟩

theorem parses_u8 : u8.Parses fun value => (Field.u8 value).SpelledBy := by
  apply ((parses_number 1).map UInt8.ofNat).congr
  intro value bytes
  constructor
  · intro h
    obtain ⟨n, ⟨-, rfl⟩, rfl⟩ := h
    rfl
  · rintro rfl
    exact ⟨value.toNat, ⟨value.toNat_lt, by simp [BigEndian.digits]⟩, by simp⟩

theorem parses_u16 : u16.Parses fun value => (Field.u16 value).SpelledBy := by
  apply ((parses_number 2).map UInt16.ofNat).congr
  intro value bytes
  constructor
  · intro h
    obtain ⟨n, ⟨hn, rfl⟩, rfl⟩ := h
    simp only [Field.SpelledBy, UInt16.toNat_ofNat_of_lt' hn]
  · rintro rfl
    exact ⟨value.toNat, ⟨value.toNat_lt, rfl⟩, by simp⟩

theorem parses_u32 : u32.Parses fun value => (Field.u32 value).SpelledBy := by
  apply ((parses_number 4).map UInt32.ofNat).congr
  intro value bytes
  constructor
  · intro h
    obtain ⟨n, ⟨hn, rfl⟩, rfl⟩ := h
    simp only [Field.SpelledBy, UInt32.toNat_ofNat_of_lt' hn]
  · rintro rfl
    exact ⟨value.toNat, ⟨value.toNat_lt, rfl⟩, by simp⟩

theorem parses_i32 : i32.Parses fun value => (Field.i32 value).SpelledBy := by
  apply (parses_u32.map Int32.ofUInt32).congr
  intro value bytes
  constructor
  · intro h
    obtain ⟨word, rfl, rfl⟩ := h
    simp [Field.SpelledBy]
  · rintro rfl
    exact ⟨value.toUInt32, rfl, by simp⟩

theorem parses_bool : bool.Parses fun value => (Field.bool value).SpelledBy :=
  parses_u8.map (· != 0)

theorem parses_blob : blob.Parses fun value => (Field.blob value).SpelledBy := by
  apply (parses_u16.bind fun length => parses_take length.toNat).congr
  intro value bytes
  constructor
  · intro h
    obtain ⟨length, _, back, rfl, ⟨hlength, rfl⟩, rfl⟩ := h
    have hbound := length.toNat_lt
    exact ⟨by omega, by rw [hlength]⟩
  · intro h
    obtain ⟨hlength, rfl⟩ := h
    have hword : (UInt16.ofNat value.length).toNat = value.length :=
      UInt16.toNat_ofNat_of_lt' (Nat.lt_succ_of_le hlength)
    exact ⟨UInt16.ofNat value.length, _, value, rfl, ⟨hword.symm, rfl⟩, by rw [hword]⟩

private theorem parses_read (bytes : Bytes) :
    Parses (match Utf8.read bytes with
      | .ok text => pure (some text)
      | .error flaw => throw (.invalidUtf8 flaw))
      fun value rest => ∃ text, value = some text ∧ Utf8.write text = bytes ∧ rest = [] := by
  cases hread : Utf8.read bytes with
  | ok text =>
    apply (parses_pure (some text)).congr
    intro value rest
    constructor
    · intro h
      obtain ⟨rfl, rfl⟩ := h
      exact ⟨text, rfl, Utf8.write_eq_of_read hread, rfl⟩
    · intro h
      obtain ⟨other, rfl, rfl, rfl⟩ := h
      rw [Utf8.read_write, Except.ok.injEq] at hread
      rw [hread]
      exact ⟨rfl, rfl⟩
  | error flaw =>
    apply parses_throw
    intro value rest h
    obtain ⟨other, rfl, rfl, rfl⟩ := h
    rw [Utf8.read_write] at hread
    cases hread

theorem parses_text : text.Parses fun value => (Field.text value).SpelledBy := by
  -- The length word decides between no text and a text of that many bytes, which cannot be 65535.
  have hbody (length : UInt16) : Parses
      (do
        if length = nullLength then
          return none
        let bytes ← take length.toNat
        match Utf8.read bytes with
        | .ok text => return some text
        | .error flaw => throw (.invalidUtf8 flaw))
      fun value bytes =>
        length = nullLength ∧ value = none ∧ bytes = [] ∨
          length ≠ nullLength ∧ ∃ text, value = some text ∧ bytes = Utf8.write text ∧
            bytes.length = length.toNat := by
    by_cases hnull : length = nullLength
    · rw [if_pos hnull]
      exact (parses_pure none).congr fun value bytes => by simp [hnull]
    · rw [if_neg hnull]
      apply ((parses_take length.toNat).bind fun bytes => parses_read bytes).congr
      intro value bytes
      constructor
      · intro hgiven
        obtain ⟨given, front, back, ⟨hlength, rfl⟩, ⟨text, rfl, hwrite, rfl⟩, rfl⟩ := hgiven
        rw [List.append_nil]
        exact .inr ⟨hnull, text, rfl, hwrite.symm, hlength⟩
      · intro hgiven
        rcases hgiven with ⟨h, -⟩ | ⟨-, text, rfl, rfl, hlength⟩
        · exact absurd h hnull
        · exact ⟨_, _, [], ⟨hlength, rfl⟩, ⟨text, rfl, rfl, rfl⟩, (List.append_nil _).symm⟩
  apply (parses_u16.bind hbody).congr
  intro value bytes
  constructor
  · intro hgiven
    obtain ⟨length, _, back, rfl, ⟨rfl, rfl, rfl⟩ | ⟨hlength, text, rfl, rfl, hsize⟩, rfl⟩ := hgiven
    · rfl
    · have hbound := length.toNat_lt
      have hother : length.toNat ≠ 65535 := fun h => hlength (UInt16.toNat_inj.mp h)
      exact ⟨by omega, by rw [hsize]⟩
  · intro hvalue
    cases value with
    | none =>
      refine ⟨nullLength, _, [], rfl, .inl ⟨rfl, rfl, rfl⟩, ?_⟩
      rw [List.append_nil]
      exact hvalue
    | some text =>
      obtain ⟨hsize, rfl⟩ := hvalue
      have hword : (UInt16.ofNat (Utf8.write text).length).toNat = (Utf8.write text).length :=
        UInt16.toNat_ofNat_of_lt' (Nat.lt_succ_of_lt hsize)
      refine ⟨UInt16.ofNat (Utf8.write text).length, _, Utf8.write text, rfl,
        .inr ⟨?_, text, rfl, rfl, hword.symm⟩, by rw [hword]⟩
      intro hnull
      rw [hnull] at hword
      exact absurd hword.symm (Nat.ne_of_lt hsize)

/-- The decoder reads a value off fields that it is made from, one behind the other. -/
def ReadsFields (decoder : Decoder α) (made : α → List Field → Prop) : Prop :=
  decoder.Parses fun value bytes => ∃ fields, made value fields ∧ Field.AllSpelledBy fields bytes

theorem readsFields_pure (given : α) :
    ReadsFields (pure given) fun value fields => fields = [] ∧ value = given := by
  apply (parses_pure given).congr
  intro value bytes
  constructor
  · intro h
    exact ⟨[], ⟨rfl, h.1⟩, h.2⟩
  · intro h
    obtain ⟨_, ⟨rfl, hvalue⟩, hbytes⟩ := h
    exact ⟨hvalue, hbytes⟩

/-- Reading a field and then what is made from further fields. -/
theorem Parses.then {decoder : Decoder α} {field : α → Field} {next : α → Decoder β}
    {made : α → β → List Field → Prop}
    (hdecoder : decoder.Parses fun value => (field value).SpelledBy)
    (hnext : ∀ given, (next given).ReadsFields (made given)) :
    (decoder >>= next).ReadsFields fun value fields =>
      ∃ given rest, fields = field given :: rest ∧ made given value rest := by
  apply (hdecoder.bind hnext).congr
  intro value bytes
  constructor
  · intro h
    obtain ⟨given, front, back, hfront, ⟨rest, hmade, hrest⟩, rfl⟩ := h
    exact ⟨_, ⟨given, rest, rfl, hmade⟩, front, back, hfront, hrest, rfl⟩
  · intro h
    obtain ⟨_, ⟨given, rest, rfl, hmade⟩, front, back, hfront, hrest, rfl⟩ := h
    exact ⟨given, front, back, hfront, ⟨rest, hmade, hrest⟩, rfl⟩

/-- Requiring the end succeeds at the end and reads nothing. -/
theorem finish_eq_ok_iff {reader after : Reader} :
    finish reader = .ok () after ↔ reader.rest = [] ∧ after = reader := by
  unfold finish
  cases reader.rest with
  | nil => simp [eq_comm]
  | cons byte rest => simp

/-- A decoder that must end the message reads the spellings that end it. -/
theorem Parses.finish_eq_ok_iff {decoder : Decoder α} {spelling : α → Bytes → Prop}
    (hdecoder : decoder.Parses spelling) {reader after : Reader} {value : α} :
    (do
      let value ← decoder
      finish
      return value : Decoder α) reader = .ok value after ↔
      spelling value reader.rest ∧ after = ⟨reader.position + reader.rest.length, []⟩ := by
  constructor
  · intro h
    obtain ⟨found, read, hfound, h⟩ := bind_eq_ok_iff.mp h
    obtain ⟨_, ended, hfinish, h⟩ := bind_eq_ok_iff.mp h
    obtain ⟨rfl, rfl⟩ : found = value ∧ ended = after := EStateM.Result.ok.inj h
    obtain ⟨hend, rfl⟩ := Decoder.finish_eq_ok_iff.mp hfinish
    obtain ⟨bytes, hbytes, hrest, hposition⟩ := (hdecoder reader ended found).mp hfound
    rw [hend, List.append_nil] at hrest
    refine ⟨hrest ▸ hbytes, ?_⟩
    cases ended
    simp_all
  · intro hgiven
    obtain ⟨hspelling, rfl⟩ := hgiven
    have hread : decoder reader = .ok value ⟨reader.position + reader.rest.length, []⟩ :=
      (hdecoder _ _ _).mpr ⟨reader.rest, hspelling, (List.append_nil _).symm, rfl⟩
    exact bind_eq_ok_iff.mpr ⟨value, _, hread,
      bind_eq_ok_iff.mpr ⟨(), _, Decoder.finish_eq_ok_iff.mpr ⟨rfl, rfl⟩, rfl⟩⟩

/-- A decoder repeated on values that are made of fields reads the fields of all of them. -/
theorem Parses.times {step : Decoder α} {fields : α → List Field}
    (hstep : step.Parses fun value => Field.AllSpelledBy (fields value)) (n : Nat) :
    (times step n).Parses fun values bytes =>
      values.length = n ∧ Field.AllSpelledBy (values.flatMap fields) bytes := by
  induction n with
  | zero =>
    apply (parses_pure []).congr
    intro values bytes
    rw [List.length_eq_zero_iff]
    constructor
    · intro h
      obtain ⟨rfl, rfl⟩ := h
      exact ⟨rfl, rfl⟩
    · intro h
      obtain ⟨rfl, hbytes⟩ := h
      exact ⟨rfl, hbytes⟩
  | succ n ih =>
    apply (hstep.bind fun head => ih.bind fun tail => parses_pure (head :: tail)).congr
    intro values bytes
    constructor
    · intro h
      obtain ⟨head, front, _, hhead, ⟨tail, back, _, ⟨hlength, htail⟩, ⟨rfl, rfl⟩, rfl⟩, rfl⟩ := h
      refine ⟨congrArg (· + 1) hlength, ?_⟩
      rw [List.flatMap_cons, Field.allSpelledBy_append, List.append_nil]
      exact ⟨front, back, hhead, htail, rfl⟩
    · intro h
      obtain ⟨hlength, hbytes⟩ := h
      cases values with
      | nil => cases hlength
      | cons head tail =>
        rw [List.flatMap_cons, Field.allSpelledBy_append] at hbytes
        obtain ⟨front, back, hhead, htail, rfl⟩ := hbytes
        exact ⟨head, front, back, hhead, ⟨tail, back, [], ⟨Nat.succ.inj hlength, htail⟩,
          ⟨rfl, rfl⟩, (List.append_nil back).symm⟩, rfl⟩

end Decoder

end MeshControl
