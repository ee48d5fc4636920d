import MeshControl.Message.Reply
import MeshControl.Proofs.Wire.Building

/-!
Which bytes a server's message is decoded from. `ServerMessage.SpelledBy` says it in fields: a
status or a state is spelled by every code that stands for it, and everything else by its own
fields. Decoding gives a message exactly for its spellings (`decode_eq_ok_iff`), so what a server
builds is decoded to what it meant (`decode_payload`).
-/

namespace MeshControl

theorem EventKind.bit_of_ofBit? {bits : UInt32} {kind : EventKind} (h : ofBit? bits = some kind) :
    kind.bit = bits := by
  simpa using List.find?_some h

theorem Service.parses_decode : Service.decode.Parses fun service =>
    Field.AllSpelledBy service.fields := by
  apply (Decoder.parses_u32.then fun enterprise => Decoder.parses_blob.then fun serviceData =>
    Decoder.parses_blob.then fun serverData => Decoder.readsFields_pure
      (⟨enterprise, serviceData, serverData⟩ : Service)).congr
  intro service bytes
  constructor
  · intro h
    obtain ⟨_, ⟨_, _, rfl, _, _, rfl, _, _, rfl, rfl, rfl⟩, h⟩ := h
    exact h
  · intro h
    exact ⟨_, ⟨_, _, rfl, _, _, rfl, _, _, rfl, rfl, rfl⟩, h⟩

private theorem readsFields_entry (bytes : Bytes) :
    Decoder.ReadsFields
      (match MeshPrefix.ofBytes? bytes with
        | none => throw (.invalidPrefixLength bytes.length)
        | some meshPrefix => do
          let length ← Decoder.u8
          let slaac ← Decoder.bool
          let onMesh ← Decoder.bool
          let stable ← Decoder.bool
          return { meshPrefix, length, slaac, onMesh, stable })
      fun (entry : OnMeshPrefix) fields => entry.meshPrefix.bytes = bytes ∧
        fields = [.u8 entry.length, .bool entry.slaac, .bool entry.onMesh, .bool entry.stable] := by
  cases hmesh : MeshPrefix.ofBytes? bytes with
  | none =>
    apply Decoder.parses_throw
    intro entry rest h
    obtain ⟨_, ⟨rfl, -⟩, -⟩ := h
    rw [MeshPrefix.ofBytes?_bytes] at hmesh
    cases hmesh
  | some meshPrefix =>
    apply (Decoder.parses_u8.then fun length => Decoder.parses_bool.then fun slaac =>
      Decoder.parses_bool.then fun onMesh => Decoder.parses_bool.then fun stable =>
      Decoder.readsFields_pure (⟨meshPrefix, length, slaac, onMesh, stable⟩ : OnMeshPrefix)).congr
    intro entry rest
    constructor
    · intro h
      obtain ⟨_, ⟨_, _, rfl, _, _, rfl, _, _, rfl, _, _, rfl, rfl, rfl⟩, h⟩ := h
      exact ⟨_, ⟨MeshPrefix.bytes_of_ofBytes? hmesh, rfl⟩, h⟩
    · intro h
      obtain ⟨_, ⟨rfl, rfl⟩, h⟩ := h
      rw [MeshPrefix.ofBytes?_bytes, Option.some.injEq] at hmesh
      subst hmesh
      exact ⟨_, ⟨_, _, rfl, _, _, rfl, _, _, rfl, _, _, rfl, rfl, rfl⟩, h⟩

theorem OnMeshPrefix.parses_decode : OnMeshPrefix.decode.Parses fun entry =>
    Field.AllSpelledBy entry.fields := by
  apply (Decoder.parses_blob.then readsFields_entry).congr
  intro entry bytes
  constructor
  · intro h
    obtain ⟨_, ⟨_, _, rfl, rfl, rfl⟩, h⟩ := h
    exact h
  · intro h
    exact ⟨_, ⟨_, _, rfl, rfl, rfl⟩, h⟩

namespace Event

/-- Bytes behind the kind word that an event's value is read from. -/
def ValueSpelledBy : Event → Bytes → Prop
  | state value, bytes => ∃ code, NetworkState.ofCode code = value ∧
    (Field.u32 code).SpelledBy bytes
  | role value, bytes => ∃ code, NodeRole.ofCode code = value ∧ (Field.u32 code).SpelledBy bytes
  | partition value, bytes => (Field.i32 value).SpelledBy bytes
  | services entries, bytes => Field.AllSpelledBy (services entries).valueFields bytes
  | prefixes entries, bytes => Field.AllSpelledBy (prefixes entries).valueFields bytes

/-- Bytes behind the type code that an event is read from. -/
def SpelledBy (event : Event) (bytes : Bytes) : Prop :=
  ∃ front back, (Field.u32 event.kind.bit).SpelledBy front ∧ event.ValueSpelledBy back ∧
    bytes = front ++ back

private theorem parses_entries {α : Type} {step : Decoder α} {fields : α → List Field}
    (hstep : step.Parses fun entry => Field.AllSpelledBy (fields entry)) (event : List α → Event) :
    Decoder.Parses (do
      let count ← Decoder.u16
      event <$> Decoder.times step count.toNat)
      fun value bytes => ∃ entries, value = event entries ∧
        Field.AllSpelledBy (.count entries.length :: entries.flatMap fields) bytes := by
  apply (Decoder.parses_u16.bind fun count => (hstep.times count.toNat).map event).congr
  intro value bytes
  constructor
  · intro h
    obtain ⟨count, _, back, rfl, ⟨entries, ⟨hlength, hentries⟩, rfl⟩, rfl⟩ := h
    have hcount := count.toNat_lt
    exact ⟨entries, rfl, _, back, ⟨by omega, by rw [hlength]⟩, hentries, rfl⟩
  · intro h
    obtain ⟨entries, rfl, _, back, ⟨hlength, rfl⟩, hentries, rfl⟩ := h
    have hword : (UInt16.ofNat entries.length).toNat = entries.length :=
      UInt16.toNat_ofNat_of_lt' (Nat.lt_succ_of_le hlength)
    exact ⟨UInt16.ofNat entries.length, _, back, rfl, ⟨entries, ⟨hword.symm, hentries⟩, rfl⟩,
      by rw [hword]⟩

theorem parses_decodeValue (kind : EventKind) :
    (decodeValue kind).Parses fun event bytes =>
      event.kind = kind ∧ event.ValueSpelledBy bytes := by
  cases kind with
  | state =>
    apply (Decoder.parses_u32.map (state ∘ NetworkState.ofCode)).congr
    intro event bytes
    constructor
    · intro h
      obtain ⟨code, hcode, rfl⟩ := h
      exact ⟨rfl, code, rfl, hcode⟩
    · intro h
      obtain ⟨hkind, hvalue⟩ := h
      cases event <;> cases hkind
      obtain ⟨code, rfl, hcode⟩ := hvalue
      exact ⟨code, hcode, rfl⟩
  | role =>
    apply (Decoder.parses_u32.map (role ∘ NodeRole.ofCode)).congr
    intro event bytes
    constructor
    · intro h
      obtain ⟨code, hcode, rfl⟩ := h
      exact ⟨rfl, code, rfl, hcode⟩
    · intro h
      obtain ⟨hkind, hvalue⟩ := h
      cases event <;> cases hkind
      obtain ⟨code, rfl, hcode⟩ := hvalue
      exact ⟨code, hcode, rfl⟩
  | partition =>
    apply (Decoder.parses_i32.map partition).congr
    intro event bytes
    constructor
    · intro h
      obtain ⟨value, hvalue, rfl⟩ := h
      exact ⟨rfl, hvalue⟩
    · intro h
      obtain ⟨hkind, hvalue⟩ := h
      cases event <;> cases hkind
      exact ⟨_, hvalue, rfl⟩
  | service =>
    apply (parses_entries Service.parses_decode services).congr
    intro event bytes
    constructor
    · intro h
      obtain ⟨entries, rfl, hentries⟩ := h
      exact ⟨rfl, hentries⟩
    · intro h
      obtain ⟨hkind, hvalue⟩ := h
      cases event <;> cases hkind
      exact ⟨_, rfl, hvalue⟩
  | onMeshPrefix =>
    apply (parses_entries OnMeshPrefix.parses_decode prefixes).congr
    intro event bytes
    constructor
    · intro h
      obtain ⟨entries, rfl, hentries⟩ := h
      exact ⟨rfl, hentries⟩
    · intro h
      obtain ⟨hkind, hvalue⟩ := h
      cases event <;> cases hkind
      exact ⟨_, rfl, hvalue⟩

private theorem parses_valueOfBits (bits : UInt32) :
    Decoder.Parses
      (match EventKind.ofBit? bits with
        | none => throw (.unknownEventKind bits)
        | some kind => decodeValue kind)
      fun event bytes => event.kind.bit = bits ∧ event.ValueSpelledBy bytes := by
  cases hkind : EventKind.ofBit? bits with
  | none =>
    apply Decoder.parses_throw
    intro event bytes h
    obtain ⟨rfl, -⟩ := h
    rw [EventKind.ofBit?_bit] at hkind
    cases hkind
  | some kind =>
    apply (parses_decodeValue kind).congr
    intro event bytes
    constructor
    · intro h
      obtain ⟨rfl, hvalue⟩ := h
      exact ⟨EventKind.bit_of_ofBit? hkind, hvalue⟩
    · intro h
      obtain ⟨rfl, hvalue⟩ := h
      rw [EventKind.ofBit?_bit, Option.some.injEq] at hkind
      exact ⟨hkind, hvalue⟩

theorem parses_decode : decode.Parses SpelledBy := by
  apply (Decoder.parses_u32.bind parses_valueOfBits).congr
  intro event bytes
  constructor
  · intro h
    obtain ⟨_, front, back, hfront, ⟨rfl, hback⟩, rfl⟩ := h
    exact ⟨front, back, hfront, hback, rfl⟩
  · intro h
    obtain ⟨front, back, hfront, hback, rfl⟩ := h
    exact ⟨_, front, back, hfront, ⟨rfl, hback⟩, rfl⟩

theorem spelledBy_of_allBytes? {event : Event} {bytes : Bytes}
    (h : Field.allBytes? event.fields = some bytes) : event.SpelledBy bytes := by
  obtain ⟨front, back, hfront, hback, rfl⟩ := Field.allSpelledBy_of_allBytes? h
  refine ⟨front, back, hfront, ?_, rfl⟩
  cases event with
  | state value =>
    obtain ⟨_, _, hcode, rfl, rfl⟩ := hback
    rw [List.append_nil]
    exact ⟨value.code, NetworkState.ofCode_code value, hcode⟩
  | role value =>
    obtain ⟨_, _, hcode, rfl, rfl⟩ := hback
    rw [List.append_nil]
    exact ⟨value.code, NodeRole.ofCode_code value, hcode⟩
  | partition value =>
    obtain ⟨_, _, hvalue, rfl, rfl⟩ := hback
    rw [List.append_nil]
    exact hvalue
  | services entries => exact hback
  | prefixes entries => exact hback

end Event

namespace Reply

/-- Bytes behind the type code that a reply is read from. -/
def SpelledBy : Reply → Bytes → Prop
  | response code status, bytes => ∃ word, Status.ofCode word = status ∧
    Field.AllSpelledBy [.u16 code, .i32 word] bytes
  | tunnelName code status name, bytes => ∃ word, Status.ofCode word = status ∧
    Field.AllSpelledBy [.u16 code, .i32 word, .text name] bytes

/-- The reply as it is read: a status that has a name stands under that name. -/
def normal : Reply → Reply
  | response code status => response code (Status.ofCode status.code)
  | tunnelName code status name => tunnelName code (Status.ofCode status.code) name

theorem spelledBy_of_allBytes? {reply : Reply} {bytes : Bytes}
    (h : Field.allBytes? reply.fields = some bytes) : reply.normal.SpelledBy bytes := by
  cases reply with
  | response code status => exact ⟨status.code, rfl, Field.allSpelledBy_of_allBytes? h⟩
  | tunnelName code status name => exact ⟨status.code, rfl, Field.allSpelledBy_of_allBytes? h⟩

end Reply

namespace ServerMessage

/-- Bytes behind the type code that a message is read from. -/
def SpelledBy : ServerMessage → Bytes → Prop
  | reply answer => answer.SpelledBy
  | event value => value.SpelledBy

/-- The message as it is read. -/
def normal : ServerMessage → ServerMessage
  | reply answer => reply answer.normal
  | event value => event value

/-- The body of a message, if it has one. -/
def payload? (message : ServerMessage) : Option Bytes :=
  Frame.payload? message.type message.fields

theorem parses_decodeFields (code : UInt16) :
    (decodeFields code).Parses fun message bytes =>
      message.type.code = code ∧ message.SpelledBy bytes := by
  unfold decodeFields
  cases htype : MessageType.ofCode? code with
  | none =>
    apply Decoder.parses_throw
    intro message bytes hgiven
    obtain ⟨rfl, -⟩ := hgiven
    rw [MessageType.ofCode?_code] at htype
    cases htype
  | some type =>
    cases type with
    | response =>
      apply (Decoder.parses_u16.then fun requestCode => Decoder.parses_i32.then fun status =>
        Decoder.readsFields_pure (reply (.response requestCode (Status.ofCode status)))).congr
      intro message bytes
      constructor
      · intro h
        obtain ⟨_, ⟨_, _, rfl, word, _, rfl, rfl, rfl⟩, h⟩ := h
        exact ⟨MessageType.code_of_ofCode? htype, word, rfl, h⟩
      · intro h
        obtain ⟨rfl, hspelled⟩ := h
        rw [MessageType.ofCode?_code, Option.some.injEq] at htype
        rcases message with (⟨requestCode, status⟩ | _) | _ <;> cases htype
        obtain ⟨word, rfl, h⟩ := hspelled
        exact ⟨_, ⟨_, _, rfl, word, _, rfl, rfl, rfl⟩, h⟩
    | tunnelNameResponse =>
      apply (Decoder.parses_u16.then fun requestCode => Decoder.parses_i32.then fun status =>
        Decoder.parses_text.then fun name => Decoder.readsFields_pure
          (reply (.tunnelName requestCode (Status.ofCode status) name))).congr
      intro message bytes
      constructor
      · intro h
        obtain ⟨_, ⟨_, _, rfl, word, _, rfl, _, _, rfl, rfl, rfl⟩, h⟩ := h
        exact ⟨MessageType.code_of_ofCode? htype, word, rfl, h⟩
      · intro h
        obtain ⟨rfl, hspelled⟩ := h
        rw [MessageType.ofCode?_code, Option.some.injEq] at htype
        rcases message with (_ | ⟨requestCode, status, name⟩) | _ <;> cases htype
        obtain ⟨word, rfl, h⟩ := hspelled
        exact ⟨_, ⟨_, _, rfl, word, _, rfl, _, _, rfl, rfl, rfl⟩, h⟩
    | event =>
      apply (Event.parses_decode.map event).congr
      intro message bytes
      constructor
      · intro hgiven
        obtain ⟨value, hvalue, rfl⟩ := hgiven
        exact ⟨MessageType.code_of_ofCode? htype, hvalue⟩
      · intro hgiven
        obtain ⟨rfl, hspelled⟩ := hgiven
        rw [MessageType.ofCode?_code, Option.some.injEq] at htype
        rcases message with (_ | _) | value <;> cases htype
        exact ⟨value, hspelled, rfl⟩
    | _ =>
      apply Decoder.parses_throw
      intro message bytes hgiven
      obtain ⟨rfl, -⟩ := hgiven
      rw [MessageType.ofCode?_code, Option.some.injEq] at htype
      rcases message with (_ | _) | _ <;> cases htype

theorem decoder_eq_ok_iff {reader after : Reader} {message : ServerMessage} :
    decoder reader = .ok message after ↔
      (∃ bytes, message.SpelledBy bytes ∧
        reader.rest = BigEndian.digits 2 message.type.code.toNat ++ bytes) ∧
      after = ⟨reader.position + reader.rest.length, []⟩ := by
  have hparses := Decoder.parses_u16.bind parses_decodeFields
  have hdecoder : decoder = do
      let message ← Decoder.u16 >>= decodeFields
      Decoder.finish
      return message := (bind_assoc ..).symm
  rw [hdecoder, hparses.finish_eq_ok_iff]
  refine and_congr_left fun _ => ?_
  constructor
  · intro h
    obtain ⟨code, front, back, rfl, ⟨rfl, hback⟩, hrest⟩ := h
    exact ⟨back, hback, hrest⟩
  · intro h
    obtain ⟨bytes, hbytes, hrest⟩ := h
    exact ⟨_, _, bytes, rfl, ⟨rfl, hbytes⟩, hrest⟩

/-- A body is decoded to a message exactly if it is the message's type code and a spelling of it. -/
theorem decode_eq_ok_iff {body : Bytes} {message : ServerMessage} :
    decode body = .ok message ↔ ∃ bytes, message.SpelledBy bytes ∧
      body = BigEndian.digits 2 message.type.code.toNat ++ bytes := by
  unfold decode
  constructor
  · intro h
    cases hdecoder : decoder (Reader.start body) with
    | ok found after =>
      rw [hdecoder] at h
      obtain rfl : found = message := Except.ok.inj h
      exact (decoder_eq_ok_iff.mp hdecoder).1
    | error e after =>
      rw [hdecoder] at h
      cases h
  · intro hgiven
    obtain ⟨bytes, hbytes, hbody⟩ := hgiven
    have hdecoder : decoder (Reader.start body) = .ok message ⟨0 + body.length, []⟩ :=
      decoder_eq_ok_iff.mpr ⟨⟨bytes, hbytes, hbody⟩, rfl⟩
    rw [hdecoder]

/-- What a server builds is decoded to what it meant. -/
theorem decode_payload {message : ServerMessage} {payload : Bytes}
    (h : message.payload? = some payload) : decode payload = .ok message.normal := by
  obtain ⟨bytes, hbytes, -, rfl⟩ := Frame.payload?_eq_some_iff.mp h
  apply decode_eq_ok_iff.mpr
  cases message with
  | reply answer =>
    refine ⟨bytes, Reply.spelledBy_of_allBytes? hbytes, ?_⟩
    cases answer <;> rfl
  | event value => exact ⟨bytes, Event.spelledBy_of_allBytes? hbytes, rfl⟩

end ServerMessage

end MeshControl
