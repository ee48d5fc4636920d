import MeshControl.Proofs.Message.Decoding
import MeshControl.Proofs.Message.Grammar
import MeshControl.Proofs.Wire.Attempting

/-!
Reading never leaves the message. Whether a decoder succeeds or fails, it moves on past bytes that
were to be read, so a reader of a message stays one (`Reader.Reads.attemptAll`). What a call gives
that succeeds is decided by the bytes that it moves past alone: it gives the same where these stand
in another message, with anything behind them (`Parse.isLocal_decoder`). So a chain of calls that
succeeds gives the same values when the message grows (`Parse.chain_append`).
-/

namespace MeshControl

namespace Reader

/-- Some bytes that were to be read lie behind the reader. -/
def Reaches (before after : Reader) : Prop :=
  ∃ bytes, before.rest = bytes ++ after.rest ∧ after.position = before.position + bytes.length

/-- The reader is at a position in the message, and what is left is what lies behind it. -/
structure Reads (reader : Reader) (message : Bytes) : Prop where
  position_le : reader.position ≤ message.length
  rest_eq : reader.rest = message.drop reader.position

variable {before middle after : Reader} {message : Bytes}

theorem Reaches.refl (reader : Reader) : reader.Reaches reader := ⟨[], rfl, rfl⟩

theorem Reaches.trans (hfirst : before.Reaches middle) (hsecond : middle.Reaches after) :
    before.Reaches after := by
  obtain ⟨front, hrest, hposition⟩ := hfirst
  obtain ⟨back, hlast, hend⟩ := hsecond
  refine ⟨front ++ back, ?_, ?_⟩
  · rw [hrest, hlast, List.append_assoc]
  · rw [hend, hposition, List.length_append, Nat.add_assoc]

theorem Reaches.position_le (h : before.Reaches after) : before.position ≤ after.position := by
  obtain ⟨bytes, -, hposition⟩ := h
  rw [hposition]
  exact Nat.le_add_right ..

theorem reads_resume (message : Bytes) (start : Nat) : (resume message start).Reads message where
  position_le := Nat.min_le_right ..
  rest_eq := by
    rcases Nat.le_total start message.length with hinside | hbehind
    · rw [resume_eq message hinside]
    · simp only [resume, Nat.min_eq_right hbehind, List.drop_length, List.drop_of_length_le hbehind]

/-- The bytes that a reader of a message has moved past are a piece of the message. -/
theorem Reads.extract_eq (h : before.Reads message) {bytes : Bytes}
    (hrest : before.rest = bytes ++ after.rest)
    (hposition : after.position = before.position + bytes.length) :
    message.extract before.position after.position = bytes := by
  rw [List.extract_eq_take_drop, ← h.rest_eq, hrest, hposition, Nat.add_sub_cancel_left,
    List.take_left]

theorem Reads.of_reaches (h : before.Reads message) (hreaches : before.Reaches after) :
    after.Reads message := by
  obtain ⟨bytes, hrest, hposition⟩ := hreaches
  have hdrop := h.rest_eq.symm.trans hrest
  constructor
  · have hlength := congrArg List.length hdrop
    rw [List.length_drop, List.length_append] at hlength
    have hinside := h.position_le
    omega
  · rw [hposition, ← List.drop_drop, hdrop, List.drop_left]

end Reader

namespace Decoder

variable {α β : Type} {decoder : Decoder α}

/-- Whether it succeeds or fails, the decoder only moves on. -/
def Advances (decoder : Decoder α) : Prop :=
  ∀ reader : Reader, reader.Reaches (attempt decoder reader).2

theorem advances_pure (value : α) : Advances (pure value) := fun reader => .refl reader

theorem advances_throw (e : WireError) : Advances (throw e : Decoder α) := fun reader =>
  .refl reader

theorem Advances.bind {next : α → Decoder β} (hdecoder : decoder.Advances)
    (hnext : ∀ given, (next given).Advances) : (decoder >>= next).Advances := by
  intro reader
  have hfirst := hdecoder reader
  cases hstep : decoder reader with
  | ok given middle =>
    have hsecond := hnext given middle
    rw [attempt_of_eq_ok hstep] at hfirst
    rw [attempt, bind_of_eq_ok hstep]
    exact hfirst.trans hsecond
  | error e middle =>
    rw [attempt_of_eq_error hstep] at hfirst
    rw [attempt_of_eq_error (bind_of_eq_error hstep)]
    exact hfirst

theorem Advances.map (f : α → β) (hdecoder : decoder.Advances) : (f <$> decoder).Advances := by
  rw [map_eq_pure_bind]
  exact hdecoder.bind fun given => advances_pure (f given)

theorem advances_take (length : Nat) : Advances (take length) := by
  intro reader
  by_cases hlength : (reader.rest.take length).length = length
  · have htake : take length reader = .ok (reader.rest.take length)
        ⟨reader.position + length, reader.rest.drop length⟩ := if_pos hlength
    rw [attempt_of_eq_ok htake]
    exact ⟨reader.rest.take length, (List.take_append_drop ..).symm, by rw [hlength]⟩
  · have htake : take length reader =
        .error (.fieldOutOfBounds length reader.rest.length) reader := if_neg hlength
    rw [attempt_of_eq_error htake]
    exact .refl reader

theorem Advances.times (hdecoder : decoder.Advances) (n : Nat) : (times decoder n).Advances := by
  induction n with
  | zero => exact advances_pure []
  | succ n ih =>
    exact hdecoder.bind fun head => ih.bind fun tail => advances_pure (head :: tail)

theorem advances_u8 : u8.Advances := ((advances_take 1).map _).map _

theorem advances_u16 : u16.Advances := ((advances_take 2).map _).map _

theorem advances_u32 : u32.Advances := ((advances_take 4).map _).map _

theorem advances_bool : bool.Advances := advances_u8.map _

theorem advances_blob : blob.Advances :=
  advances_u16.bind fun length => advances_take length.toNat

theorem advances_text : text.Advances := by
  refine advances_u16.bind fun length => ?_
  split
  · exact advances_pure none
  · refine (advances_take length.toNat).bind fun bytes => ?_
    split
    · exact advances_pure _
    · exact advances_throw _

end Decoder

theorem FieldType.advances_read (type : FieldType) : type.read.Advances := by
  cases type with
  | u8 => exact Decoder.advances_u8.map _
  | u16 => exact Decoder.advances_u16.map _
  | u32 => exact Decoder.advances_u32.map _
  | i32 => exact (Decoder.advances_u32.map _).map _
  | bool => exact Decoder.advances_bool.map _
  | blob => exact Decoder.advances_blob.map _
  | text => exact Decoder.advances_text.map _

theorem Service.advances_decode : Service.decode.Advances :=
  Decoder.advances_u32.bind fun _ => Decoder.advances_blob.bind fun _ =>
    Decoder.advances_blob.bind fun _ => Decoder.advances_pure _

theorem OnMeshPrefix.advances_decode : OnMeshPrefix.decode.Advances := by
  refine Decoder.advances_blob.bind fun bytes => ?_
  split
  · exact Decoder.advances_throw _
  · exact Decoder.advances_u8.bind fun _ => Decoder.advances_bool.bind fun _ =>
      Decoder.advances_bool.bind fun _ => Decoder.advances_bool.bind fun _ =>
      Decoder.advances_pure _

theorem Event.advances_decode : Event.decode.Advances := by
  refine Decoder.advances_u32.bind fun bits => ?_
  split
  · exact Decoder.advances_throw _
  · rename_i kind _
    cases kind with
    | state | role => exact Decoder.advances_u32.map _
    | partition => exact (Decoder.advances_u32.map _).map _
    | service =>
      exact Decoder.advances_u16.bind fun count => (Service.advances_decode.times _).map _
    | onMeshPrefix =>
      exact Decoder.advances_u16.bind fun count => (OnMeshPrefix.advances_decode.times _).map _

/-- A decoder that succeeds moves past some bytes, at least one, and does the same wherever these
bytes stand and whatever is behind them. -/
def Decoder.IsLocal {α : Type} (decoder : Decoder α) : Prop :=
  ∀ (reader after : Reader) (value : α), decoder reader = .ok value after →
    ∃ bytes, bytes ≠ [] ∧ reader.rest = bytes ++ after.rest ∧
      after.position = reader.position + bytes.length ∧
      ∀ position tail, decoder ⟨position, bytes ++ tail⟩ =
        .ok value ⟨position + bytes.length, tail⟩

theorem Decoder.Parses.isLocal {α : Type} {decoder : Decoder α} {spelling : α → Bytes → Prop}
    (hdecoder : decoder.Parses spelling) (hnonempty : ∀ value, ¬ spelling value []) :
    decoder.IsLocal := by
  intro reader after value h
  obtain ⟨bytes, hspelling, hrest, hposition⟩ := (hdecoder reader after value).mp h
  refine ⟨bytes, ?_, hrest, hposition, fun position tail => ?_⟩
  · rintro rfl
    exact hnonempty value hspelling
  · exact (hdecoder _ _ value).mpr ⟨bytes, hspelling, rfl, rfl⟩

theorem FieldType.not_spans_nil (type : FieldType) : ¬ type.Spans [] := by
  intro h
  cases type with
  | u8 | u16 | u32 | i32 | bool => cases h
  | blob =>
    obtain ⟨content, -, hnil⟩ := h
    simp [BigEndian.digits] at hnil
  | text => simp [Spans, BigEndian.digits] at h

/-- A call that reads from a message: for a field of a type, or for an event behind its type code.
-/
inductive Parse where
  | field (type : FieldType)
  | event
deriving DecidableEq

namespace Parse

def decoder : Parse → Decoder (Field ⊕ Event)
  | field type => Sum.inl <$> type.read
  | event => Sum.inr <$> Event.decode

/-- What calls give that are made one after the other, starting at any position, each wherever the
one before it has stopped. Ends with the reader behind the last. -/
def chain (calls : List Parse) (message : Bytes) (start : Nat) :
    List (Except WireError (Field ⊕ Event)) × Reader :=
  attemptAll (calls.map decoder) (Reader.resume message start)

theorem advances_decoder (call : Parse) : call.decoder.Advances := by
  cases call with
  | field type => exact type.advances_read.map _
  | event => exact Event.advances_decode.map _

theorem isLocal_decoder (call : Parse) : call.decoder.IsLocal := by
  cases call with
  | field type =>
    apply (type.parses_read.map Sum.inl).isLocal
    intro value h
    obtain ⟨field, ⟨htype, hspelled⟩, rfl⟩ := h
    exact type.not_spans_nil (FieldType.spans_of_spelledBy htype hspelled)
  | event =>
    apply (Event.parses_decode.map Sum.inr).isLocal
    intro value h
    obtain ⟨event, ⟨front, back, hfront, -, hnil⟩, rfl⟩ := h
    obtain ⟨rfl, -⟩ := List.append_eq_nil_iff.mp hnil.symm
    exact FieldType.not_spans_nil .u32 (FieldType.spans_of_spelledBy ⟨_, rfl⟩ hfront)

variable {calls : List Parse} {message : Bytes} {start : Nat}

theorem reads_chain (calls : List Parse) (message : Bytes) (start : Nat) :
    (chain calls message start).2.Reads message := by
  refine attemptAll_keeps (motive := fun reader : Reader => reader.Reads message) ?_
    (Reader.reads_resume message start)
  intro step hstep reader hreader
  obtain ⟨call, -, rfl⟩ := List.mem_map.mp hstep
  exact hreader.of_reaches (call.advances_decoder reader)

/-- Calls that succeed give the same where more bytes are left to be read. -/
theorem attemptAll_append_right {reader : Reader} {values : List (Field ⊕ Event)}
    (h : (attemptAll (calls.map decoder) reader).1 = values.map .ok) (more : Bytes) :
    (attemptAll (calls.map decoder) ⟨reader.position, reader.rest ++ more⟩).1 =
      values.map .ok := by
  induction calls generalizing reader values with
  | nil => exact h
  | cons call calls ih =>
    obtain ⟨value, later, middle, rfl, hstep, hlater⟩ := of_attemptAll_cons_eq_map_ok h
    obtain ⟨bytes, -, hrest, hposition, hlocal⟩ := call.isLocal_decoder _ _ _ hstep
    have hmore := hlocal reader.position (middle.rest ++ more)
    rw [← hposition, ← List.append_assoc, ← hrest] at hmore
    rw [List.map_cons, attemptAll_cons_of_eq_ok hmore, ih hlater]
    rfl

/-- A chain of calls that succeed gives the same values when bytes are put behind the message. -/
theorem chain_append {values : List (Field ⊕ Event)}
    (h : (chain calls message start).1 = values.map .ok) (more : Bytes) :
    (chain calls (message ++ more) start).1 = values.map .ok := by
  cases calls with
  | nil => exact h
  | cons call calls =>
    -- The first call has found bytes to read, so it did not start behind the message.
    have hinside : start ≤ message.length := by
      obtain ⟨value, later, middle, -, hstep, -⟩ := of_attemptAll_cons_eq_map_ok h
      obtain ⟨bytes, hsome, hrest, -, -⟩ := call.isLocal_decoder _ _ _ hstep
      by_contra hbehind
      rw [Reader.resume, List.drop_of_length_le (Nat.le_of_not_le hbehind)] at hrest
      exact hsome (List.append_eq_nil_iff.mp hrest.symm).1
    have hread := attemptAll_append_right h more
    rw [Reader.resume_eq message hinside] at hread
    unfold chain
    rw [Reader.resume_eq _ (Nat.le_trans hinside (by simp)), List.drop_append_of_le_length hinside]
    exact hread

/-- A call goes on behind the length of a blob whose bytes are missing. -/
example : (chain [.field .blob, .field .u8] [0, 3, 7] 0).2.position = 3 := by decide

end Parse

end MeshControl
