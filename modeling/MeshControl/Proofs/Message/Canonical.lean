import MeshControl.Proofs.Message.Fitting

/-!
What is accepted as a message of a server is what a server writes, but for the spellings that the
format leaves open: a flag may be any byte but zero, and the code of a state or a role may name
none. `ServerMessage.tidy` puts those right, and what it makes of a body that is accepted is the
body of the message that the body is read as (`ServerMessage.payload?_of_decode_eq_ok`). No body
that is accepted begins another one (`ServerMessage.eq_nil_of_decode_append`).
-/

namespace MeshControl

namespace Field

/-- Whether a field has one spelling only. -/
def IsExact : Field → Prop
  | bool _ => False
  | _ => True

theorem bytes?_of_spelledBy {field : Field} {bytes : Bytes} (hexact : field.IsExact)
    (h : field.SpelledBy bytes) : field.bytes? = some bytes := by
  cases field with
  | u8 value | u16 value | u32 value | i32 value =>
    obtain rfl := h
    simp [bytes?, pieces]
  | bool value => exact hexact.elim
  | blob value =>
    obtain ⟨hlength, rfl⟩ := h
    simp [bytes?, pieces, hlength]
  | text value =>
    cases value with
    | none =>
      obtain rfl := h
      simp [bytes?, pieces]
    | some value =>
      obtain ⟨hlength, rfl⟩ := h
      simp [bytes?, pieces, hlength]
  | count value =>
    obtain ⟨hcount, rfl⟩ := h
    simp [bytes?, pieces, hcount]

theorem allBytes?_of_allSpelledBy {fields : List Field} {bytes : Bytes}
    (hexact : ∀ field ∈ fields, field.IsExact) (h : AllSpelledBy fields bytes) :
    allBytes? fields = some bytes := by
  induction fields generalizing bytes with
  | nil =>
    obtain rfl := h
    rfl
  | cons field fields ih =>
    obtain ⟨front, back, hfield, hfields, rfl⟩ := h
    have hfront := bytes?_of_spelledBy (hexact field (List.mem_cons_self ..)) hfield
    have hback := ih (fun other hother => hexact other (List.mem_cons_of_mem _ hother)) hfields
    exact allBytes?_cons.mpr ⟨front, back, hfront, hback, rfl⟩

theorem allBytes?_single {field : Field} {bytes : Bytes} (hexact : field.IsExact)
    (h : field.SpelledBy bytes) : allBytes? [field] = some bytes :=
  allBytes?_cons.mpr ⟨bytes, [], bytes?_of_spelledBy hexact h, rfl, (List.append_nil _).symm⟩

theorem allBytes?_append {first second : List Field} {front back : Bytes}
    (hfirst : allBytes? first = some front) (hsecond : allBytes? second = some back) :
    allBytes? (first ++ second) = some (front ++ back) := by
  induction first generalizing front with
  | nil =>
    obtain rfl := Option.some.inj hfirst
    exact hsecond
  | cons field fields ih =>
    obtain ⟨start, middle, hfield, hfields, rfl⟩ := allBytes?_cons.mp hfirst
    rw [List.append_assoc]
    exact allBytes?_cons.mpr ⟨start, middle ++ back, hfield, ih hfields, rfl⟩

end Field

/-- The word for a code that stays where the code is named, and else is the word for the code that
stands for all others. -/
def tidyWord (named : List UInt32) (unnamed : UInt32) (word : Bytes) : Bytes :=
  if UInt32.ofNat (BigEndian.value word) ∈ named then word
  else BigEndian.digits 4 unnamed.toNat

/-- Reading a code as a name and writing the name's code tidies the word for the code. -/
theorem tidyWord_digits {α : Type} (all : List α) (code : α → UInt32) (other : α)
    (word : UInt32) :
    tidyWord (all.map code) (code other) (BigEndian.digits 4 word.toNat) =
      BigEndian.digits 4 (code ((all.find? (code · = word)).getD other)).toNat := by
  have hword : UInt32.ofNat (BigEndian.value (BigEndian.digits 4 word.toNat)) = word := by
    rw [BigEndian.value_digits word.toNat_lt, UInt32.ofNat_toNat]
  unfold tidyWord
  rw [hword]
  cases hfound : all.find? (code · = word) with
  | none =>
    have hunnamed : word ∉ all.map code := by
      intro hmem
      obtain ⟨name, hname, hcode⟩ := List.mem_map.mp hmem
      simpa [hcode] using List.find?_eq_none.mp hfound name hname
    rw [if_neg hunnamed, Option.getD_none]
  | some name =>
    have hcode : code name = word := by simpa using List.find?_some hfound
    have hnamed : word ∈ all.map code :=
      List.mem_map.mpr ⟨name, List.mem_of_find?_eq_some hfound, hcode⟩
    rw [if_pos hnamed, Option.getD_some, hcode]

/-- A flag as it is written: every byte but zero becomes one. -/
def tidyFlag (byte : UInt8) : UInt8 := if byte = 0 then 0 else 1

theorem Field.bytes?_bool (byte : UInt8) : (bool (byte != 0)).bytes? = some [tidyFlag byte] := by
  unfold tidyFlag
  by_cases hzero : byte = 0
  · rw [if_pos hzero, hzero]
    rfl
  · have hset : (byte != 0) = true := bne_iff_ne.mpr hzero
    rw [if_neg hzero, hset]
    rfl

/-- Flags are one byte each, and are written as the same bytes put right. -/
theorem Field.allBytes?_bools {values : List Bool} {bytes : Bytes}
    (h : AllSpelledBy (values.map bool) bytes) :
    bytes.length = values.length ∧
      allBytes? (values.map bool) = some (bytes.map tidyFlag) := by
  induction values generalizing bytes with
  | nil =>
    obtain rfl := h
    exact ⟨rfl, rfl⟩
  | cons value values ih =>
    obtain ⟨_, back, ⟨byte, rfl, rfl⟩, hback, rfl⟩ := h
    obtain ⟨hlength, hbytes⟩ := ih hback
    refine ⟨congrArg (· + 1) hlength, ?_⟩
    exact allBytes?_cons.mpr ⟨_, _, bytes?_bool byte, hbytes, rfl⟩

/-- Entries of prefixes with the flags, the last three of the fourteen bytes of each, put right. -/
def tidyEntries : Nat → Bytes → Bytes
  | 0, bytes => bytes
  | count + 1, bytes =>
    bytes.take 11 ++ ((bytes.drop 11).take 3).map tidyFlag ++ tidyEntries count (bytes.drop 14)

theorem tidyEntries_append {count : Nat} {front flags rest : Bytes} (hfront : front.length = 11)
    (hflags : flags.length = 3) :
    tidyEntries (count + 1) (front ++ flags ++ rest) =
      front ++ flags.map tidyFlag ++ tidyEntries count rest := by
  have hentry : (front ++ flags).length = 14 := by
    rw [List.length_append, hfront, hflags]
  have hdrop : (front ++ flags ++ rest).drop 14 = rest := List.drop_left' hentry
  rw [tidyEntries, hdrop, List.append_assoc front, List.take_left' hfront, List.drop_left' hfront,
    List.take_left' hflags]

theorem length_tidyEntries (count : Nat) (bytes : Bytes) :
    (tidyEntries count bytes).length = bytes.length := by
  induction count generalizing bytes with
  | zero => rfl
  | succ count ih =>
    simp only [tidyEntries, List.length_append, List.length_map, List.length_take,
      List.length_drop, ih]
    omega

namespace OnMeshPrefix

/-- The spelling of an entry ends with its three flags, and only they can be written otherwise. -/
theorem exists_flags {entry : OnMeshPrefix} {bytes : Bytes}
    (h : Field.AllSpelledBy entry.fields bytes) :
    ∃ front flags, bytes = front ++ flags ∧ front.length = 11 ∧ flags.length = 3 ∧
      front.take 2 = BigEndian.digits 2 8 ∧
      Field.allBytes? entry.fields = some (front ++ flags.map tidyFlag) := by
  have hfields : entry.fields = [.blob entry.meshPrefix.bytes, .u8 entry.length] ++
      [entry.slaac, entry.onMesh, entry.stable].map Field.bool := rfl
  rw [hfields, Field.allSpelledBy_append] at h
  obtain ⟨front, flags, hfront, hflags, rfl⟩ := h
  obtain ⟨hthree, htidy⟩ := Field.allBytes?_bools hflags
  have hexact := Field.allBytes?_of_allSpelledBy (by simp [Field.IsExact]) hfront
  have hlength := Field.length_of_allBytes? hexact
  simp only [Field.totalSize, Field.size, entry.meshPrefix.length_bytes] at hlength
  refine ⟨front, flags, rfl, hlength, hthree, ?_, hfields ▸ Field.allBytes?_append hexact htidy⟩
  obtain ⟨_, back, ⟨-, rfl⟩, -, rfl⟩ := hfront
  rw [List.append_assoc, List.take_left' (BigEndian.length_digits ..),
    entry.meshPrefix.length_bytes]

theorem allBytes?_tidyEntries {entries : List OnMeshPrefix} {bytes : Bytes}
    (h : Field.AllSpelledBy (entries.flatMap fields) bytes) :
    Field.allBytes? (entries.flatMap fields) = some (tidyEntries entries.length bytes) := by
  induction entries generalizing bytes with
  | nil =>
    obtain rfl := h
    rfl
  | cons entry entries ih =>
    rw [List.flatMap_cons, Field.allSpelledBy_append] at h
    obtain ⟨_, back, hentry, hentries, rfl⟩ := h
    obtain ⟨front, flags, rfl, hfront, hflags, -, hwritten⟩ := exists_flags hentry
    rw [List.flatMap_cons, List.length_cons, tidyEntries_append hfront hflags]
    exact Field.allBytes?_append hwritten (ih hentries)

/-- Every entry begins with the length of its prefix, which is eight. -/
theorem take_drop_of_allSpelledBy {entries : List OnMeshPrefix} {bytes : Bytes}
    (h : Field.AllSpelledBy (entries.flatMap fields) bytes) (i : Nat) (hi : i < entries.length) :
    (bytes.drop (14 * i)).take 2 = BigEndian.digits 2 8 := by
  induction entries generalizing bytes i with
  | nil => exact absurd hi (Nat.not_lt_zero i)
  | cons entry entries ih =>
    rw [List.flatMap_cons, Field.allSpelledBy_append] at h
    obtain ⟨_, back, hentry, hentries, rfl⟩ := h
    obtain ⟨front, flags, rfl, hfront, hflags, hword, -⟩ := exists_flags hentry
    cases i with
    | zero =>
      rw [Nat.mul_zero, List.drop_zero, List.append_assoc,
        List.take_append_of_le_length (by omega)]
      exact hword
    | succ i =>
      have hentry : (front ++ flags).length = 14 := by
        rw [List.length_append, hfront, hflags]
      rw [Nat.mul_succ, Nat.add_comm, ← List.drop_drop, List.drop_left' hentry]
      exact ih hentries i (Nat.lt_of_succ_lt_succ hi)

end OnMeshPrefix

theorem Service.isExact_of_mem_flatMap {entries : List Service} {field : Field}
    (h : field ∈ entries.flatMap Service.fields) : field.IsExact := by
  obtain ⟨entry, -, hfield⟩ := List.mem_flatMap.mp h
  simp only [fields, List.mem_cons, List.not_mem_nil, or_false] at hfield
  rcases hfield with rfl | rfl | rfl <;> trivial

namespace Event

/-- The bytes of an event's value with codes and flags put right. -/
def tidy : Event → Bytes → Bytes
  | state _, word => tidyWord (NetworkState.all.map NetworkState.code) 10 word
  | role _, word => tidyWord (NodeRole.all.map NodeRole.code) 0 word
  | prefixes entries, bytes => bytes.take 2 ++ tidyEntries entries.length (bytes.drop 2)
  | _, bytes => bytes

/-- The number of entries that an event tells in front of them. -/
def count? : Event → Option Nat
  | services entries => some entries.length
  | prefixes entries => some entries.length
  | _ => none

/-- The value of an event is written as the bytes that it was read from, put right. -/
theorem allBytes?_tidy {event : Event} {bytes : Bytes} (h : event.ValueSpelledBy bytes) :
    Field.allBytes? event.valueFields = some (event.tidy bytes) := by
  cases event with
  | state value =>
    obtain ⟨code, rfl, rfl⟩ := h
    have hword := tidyWord_digits NetworkState.all NetworkState.code .unknown code
    exact Field.allBytes?_single (by trivial) hword
  | role value =>
    obtain ⟨code, rfl, rfl⟩ := h
    have hword := tidyWord_digits NodeRole.all NodeRole.code .unknown code
    exact Field.allBytes?_single (by trivial) hword
  | partition value =>
    exact Field.allBytes?_single (by trivial) h
  | services entries =>
    refine Field.allBytes?_of_allSpelledBy (fun field hfield => ?_) h
    rcases List.mem_cons.mp hfield with rfl | hentry
    · trivial
    · exact Service.isExact_of_mem_flatMap hentry
  | prefixes entries =>
    obtain ⟨word, rest, hcount, hentries, rfl⟩ := h
    have hword := Field.bytes?_of_spelledBy (by trivial) hcount
    have hlength : word.length = 2 := Field.length_of_bytes? hword
    rw [tidy, List.take_left' hlength, List.drop_left' hlength]
    exact Field.allBytes?_cons.mpr
      ⟨word, _, hword, OnMeshPrefix.allBytes?_tidyEntries hentries, rfl⟩

theorem length_tidy {event : Event} {bytes : Bytes} (h : event.ValueSpelledBy bytes) :
    (event.tidy bytes).length = bytes.length := by
  cases event with
  | state value | role value =>
    obtain ⟨code, rfl, rfl⟩ := h
    simp only [tidy, tidyWord]
    split
    · rfl
    · simp only [BigEndian.length_digits]
  | partition value | services entries => rfl
  | prefixes entries =>
    simp only [tidy, List.length_append, List.length_take, List.length_drop, length_tidyEntries]
    omega

/-- What the body of an event tells about it in front of what it holds: its kind, the number of its
entries, and the eight bytes of every prefix. -/
structure DeclaredBy (event : Event) (payload : Bytes) : Prop where
  kind : payload.take 6 = BigEndian.digits 2 8 ++ BigEndian.digits 4 event.kind.bit.toNat
  count : ∀ count, event.count? = some count →
    count ≤ maxPayload ∧ (payload.drop 6).take 2 = BigEndian.digits 2 count
  lengths : ∀ entries, event = prefixes entries → ∀ i, i < entries.length →
    (payload.drop (8 + 14 * i)).take 2 = BigEndian.digits 2 8

end Event

namespace Reply

theorem allBytes?_of_spelledBy {reply : Reply} {bytes : Bytes} (h : reply.SpelledBy bytes) :
    Field.allBytes? reply.fields = some bytes := by
  cases reply with
  | response code status | tunnelName code status name =>
    obtain ⟨word, rfl, hfields⟩ := h
    rw [fields, Status.code_ofCode]
    exact Field.allBytes?_of_allSpelledBy (by simp [Field.IsExact]) hfields

theorem normal_of_spelledBy {reply : Reply} {bytes : Bytes} (h : reply.SpelledBy bytes) :
    reply.normal = reply := by
  cases reply with
  | response code status | tunnelName code status name =>
    obtain ⟨word, rfl, -⟩ := h
    rw [normal, Status.code_ofCode]

end Reply

namespace ServerMessage

/-- The body of a message with codes and flags put right. -/
def tidy : ServerMessage → Bytes → Bytes
  | reply _, payload => payload
  | event value, payload => payload.take 6 ++ value.tidy (payload.drop 6)

variable {message : ServerMessage} {payload : Bytes}

theorem normal_of_decode_eq_ok (h : decode payload = .ok message) : message.normal = message := by
  obtain ⟨bytes, hbytes, -⟩ := decode_eq_ok_iff.mp h
  cases message with
  | reply answer => exact congrArg reply (Reply.normal_of_spelledBy hbytes)
  | event value => rfl

/-- The body of an event is its type code, the word of its kind and the value. -/
theorem exists_value_of_decode_eq_ok {value : Event} (h : decode payload = .ok (.event value)) :
    ∃ front bytes, payload = front ++ bytes ∧ front.length = 6 ∧
      front = BigEndian.digits 2 8 ++ BigEndian.digits 4 value.kind.bit.toNat ∧
      value.ValueSpelledBy bytes := by
  obtain ⟨_, ⟨_, bytes, rfl, hvalue, rfl⟩, rfl⟩ := decode_eq_ok_iff.mp h
  refine ⟨_, bytes, (List.append_assoc ..).symm, ?_, rfl, hvalue⟩
  simp only [List.length_append, BigEndian.length_digits]

/-- Putting the codes and flags right in a body that is accepted makes a body of the same length. -/
theorem length_tidy (h : decode payload = .ok message) :
    (message.tidy payload).length = payload.length := by
  cases message with
  | reply answer => rfl
  | event value =>
    obtain ⟨front, bytes, rfl, hfront, -, hvalue⟩ := exists_value_of_decode_eq_ok h
    rw [tidy, List.take_left' hfront, List.drop_left' hfront, List.length_append,
      Event.length_tidy hvalue, List.length_append]

/-- The body that is written for the message that a body is read as is that body, put right. -/
theorem payload?_of_decode_eq_ok (h : decode payload = .ok message)
    (hlength : payload.length ≤ maxPayload) :
    message.payload? = some (message.tidy payload) := by
  rw [← length_tidy h] at hlength
  cases message with
  | reply answer =>
    obtain ⟨bytes, hbytes, hpayload⟩ := decode_eq_ok_iff.mp h
    refine Frame.payload?_eq_some_iff.mpr ⟨bytes, Reply.allBytes?_of_spelledBy hbytes, ?_, hpayload⟩
    rwa [tidy, hpayload, List.length_append, BigEndian.length_digits] at hlength
  | event value =>
    obtain ⟨front, bytes, rfl, hsix, hfront, hvalue⟩ := exists_value_of_decode_eq_ok h
    have hbytes := Event.allBytes?_tidy hvalue
    rw [tidy, List.take_left' hsix, List.drop_left' hsix] at hlength ⊢
    have hkind : (Field.u32 value.kind.bit).bytes? =
        some (BigEndian.digits 4 value.kind.bit.toNat) := Field.bytes?_of_spelledBy trivial rfl
    refine Frame.payload?_eq_some_iff.mpr
      ⟨_, Field.allBytes?_cons.mpr ⟨_, _, hkind, hbytes, rfl⟩, ?_, ?_⟩
    · simp only [List.length_append, BigEndian.length_digits] at hlength ⊢
      omega
    · rw [hfront, List.append_assoc]
      rfl

/-- The bodies that are accepted are the spellings that a decoder reads wherever they come next. -/
theorem parses_bodies : (Decoder.u16 >>= decodeFields).Parses fun message payload =>
    decode payload = .ok message := by
  apply (Decoder.parses_u16.bind parses_decodeFields).congr
  intro message payload
  rw [decode_eq_ok_iff]
  constructor
  · intro h
    obtain ⟨_, front, bytes, rfl, ⟨rfl, hbytes⟩, rfl⟩ := h
    exact ⟨bytes, hbytes, rfl⟩
  · intro h
    obtain ⟨bytes, hbytes, rfl⟩ := h
    exact ⟨_, _, bytes, rfl, ⟨rfl, hbytes⟩, rfl⟩

/-- A body that is accepted does not begin another one. -/
theorem eq_nil_of_decode_append {other : ServerMessage} {more : Bytes}
    (h : decode payload = .ok message) (hmore : decode (payload ++ more) = .ok other) :
    more = [] := by
  have hshort := (parses_bodies (Reader.start (payload ++ more)) ⟨payload.length, more⟩ message).mpr
    ⟨payload, h, rfl, (Nat.zero_add _).symm⟩
  have hlong := (parses_bodies (Reader.start (payload ++ more)) ⟨(payload ++ more).length, []⟩
    other).mpr ⟨_, hmore, (List.append_nil _).symm, (Nat.zero_add _).symm⟩
  rw [hshort] at hlong
  exact congrArg Reader.rest (EStateM.Result.ok.inj hlong).2

theorem declaredBy_of_decode_eq_ok {value : Event} (h : decode payload = .ok (.event value)) :
    value.DeclaredBy payload := by
  obtain ⟨front, bytes, rfl, hsix, hfront, hvalue⟩ := exists_value_of_decode_eq_ok h
  refine ⟨(List.take_left' hsix).trans hfront, ?_, ?_⟩
  · intro count hcount
    rw [List.drop_left' hsix]
    cases value with
    | state value | partition value | role value => cases hcount
    | services entries | prefixes entries =>
      obtain rfl := Option.some.inj hcount
      obtain ⟨word, rest, ⟨hfew, rfl⟩, -, rfl⟩ := hvalue
      exact ⟨hfew, List.take_left' (BigEndian.length_digits ..)⟩
  · intro entries hentries i hi
    obtain rfl := hentries
    obtain ⟨word, rest, ⟨-, rfl⟩, hrest, rfl⟩ := hvalue
    have hfirst : (front ++ BigEndian.digits 2 entries.length).length = 8 := by
      rw [List.length_append, hsix, BigEndian.length_digits]
    rw [← List.append_assoc, ← List.drop_drop, List.drop_left' hfirst]
    exact OnMeshPrefix.take_drop_of_allSpelledBy hrest i hi

/-- Every body that is accepted as a message is one that is written for that message, up to the
codes and the flags that a writer puts right. So it is as long as the message takes, tells the
message's kind and the counts and lengths of what it holds, and nothing can be left out at its end
or put behind it. -/
theorem decode_accepts_encodings (hlength : payload.length ≤ maxPayload)
    (hdecode : decode payload = .ok message) :
    (∃ written, written = message.tidy payload ∧ written.length = payload.length ∧
        (∀ before, ∃ after, message.encode before = .ok (FrameStream.frame written) after) ∧
        decode written = .ok message) ∧
      payload.length = 2 + message.size ∧
      (∀ value, message = .event value → value.DeclaredBy payload) ∧
      ∀ more other, more ≠ [] → decode (payload ++ more) ≠ .ok other := by
  have hpayload := payload?_of_decode_eq_ok hdecode hlength
  have hsame := length_tidy hdecode
  refine ⟨⟨_, rfl, hsame, ?_, ?_⟩, ?_, ?_, ?_⟩
  · intro before
    exact Frame.exists_build_eq_ok before hpayload (space_le hpayload)
  · rw [decode_payload hpayload, normal_of_decode_eq_ok hdecode]
  · rw [← hsame, Frame.length_payload hpayload, totalSize_fields]
  · intro value hvalue
    obtain rfl := hvalue
    exact declaredBy_of_decode_eq_ok hdecode
  · intro more other hmore hother
    exact hmore (eq_nil_of_decode_append hdecode hother)

/-- A prefix with the flags 7, 0 and 255 is written with the flags 1, 0 and 1. -/
theorem decode_accepts_encodings_looseFlags :
    ∃ entry written after, (event (.prefixes [entry])).encode .empty =
        .ok (FrameStream.frame written) after ∧
      decode [0, 8, 0, 0, 0, 16, 0, 1, 0, 8, 1, 2, 3, 4, 5, 6, 7, 8, 64, 7, 0, 255] =
        .ok (event (.prefixes [entry])) ∧
      written = [0, 8, 0, 0, 0, 16, 0, 1, 0, 8, 1, 2, 3, 4, 5, 6, 7, 8, 64, 1, 0, 1] := by
  have hdecode : decode [0, 8, 0, 0, 0, 16, 0, 1, 0, 8, 1, 2, 3, 4, 5, 6, 7, 8, 64, 7, 0, 255] =
      .ok (event (.prefixes [⟨⟨[1, 2, 3, 4, 5, 6, 7, 8], rfl⟩, 64, true, false, true⟩])) := by rfl
  obtain ⟨⟨written, hwritten, -, hencode, -⟩, -⟩ :=
    decode_accepts_encodings (by decide) hdecode
  obtain ⟨after, hafter⟩ := hencode .empty
  exact ⟨_, written, after, hafter, hdecode, hwritten.trans (by rfl)⟩

end ServerMessage

end MeshControl
