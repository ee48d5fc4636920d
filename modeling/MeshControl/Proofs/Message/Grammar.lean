import Mathlib.Data.List.Forall2
import MeshControl.Message.Request
import MeshControl.Proofs.Wire.Spelling

/-!
The grammar of requests, said in byte counts. `MessageType.layout?` is the list of field types
behind the code of a request, and a layout spans bytes if they are cut into its fields with nothing
left over. A body is malformed if it has no type code, or if its code is a request's and the rest is
not spanned by that request's layout. Every other body either spells one request or has a code that
stands for no request (`Body.not_malformed_iff`). The decoder of a request type reads exactly the
spellings of its requests (`Request.reads_of_layout?`).
-/

namespace MeshControl

namespace FieldType

/-- Bytes that one field of a type takes up. -/
def Spans : FieldType → Bytes → Prop
  | u8, bytes => bytes.length = 1
  | u16, bytes => bytes.length = 2
  | u32, bytes => bytes.length = 4
  | i32, bytes => bytes.length = 4
  | bool, bytes => bytes.length = 1
  | blob, bytes => ∃ content : Bytes, content.length < 65536 ∧
    bytes = BigEndian.digits 2 content.length ++ content
  | text, bytes => bytes = BigEndian.digits 2 65535 ∨ ∃ content : String,
    (Utf8.write content).length < 65535 ∧
      bytes = BigEndian.digits 2 (Utf8.write content).length ++ Utf8.write content

/-- Bytes that fields of some types take up, one behind the other. -/
def AllSpan : List FieldType → Bytes → Prop
  | [], bytes => bytes = []
  | type :: types, bytes =>
    ∃ front back, type.Spans front ∧ AllSpan types back ∧ bytes = front ++ back

/-- The fields of a type. -/
def IsOf : FieldType → Field → Prop
  | u8, field => ∃ value, field = .u8 value
  | u16, field => ∃ value, field = .u16 value
  | u32, field => ∃ value, field = .u32 value
  | i32, field => ∃ value, field = .i32 value
  | bool, field => ∃ value, field = .bool value
  | blob, field => ∃ value, field = .blob value
  | text, field => ∃ value, field = .text value

/-- A type reads exactly the fields of the type, as they are spelled. -/
theorem parses_read (type : FieldType) :
    type.read.Parses fun field bytes => type.IsOf field ∧ field.SpelledBy bytes := by
  have hfield {α : Type} {decoder : Decoder α} {field : α → Field}
      (hdecoder : decoder.Parses fun value => (field value).SpelledBy) :
      (field <$> decoder).Parses fun found bytes =>
        (∃ value, found = field value) ∧ found.SpelledBy bytes := by
    apply (hdecoder.map field).congr
    intro found bytes
    constructor
    · intro h
      obtain ⟨value, hspelled, rfl⟩ := h
      exact ⟨⟨value, rfl⟩, hspelled⟩
    · intro h
      obtain ⟨⟨value, rfl⟩, hspelled⟩ := h
      exact ⟨value, hspelled, rfl⟩
  cases type with
  | u8 => exact hfield Decoder.parses_u8
  | u16 => exact hfield Decoder.parses_u16
  | u32 => exact hfield Decoder.parses_u32
  | i32 => exact hfield Decoder.parses_i32
  | bool => exact hfield Decoder.parses_bool
  | blob => exact hfield Decoder.parses_blob
  | text => exact hfield Decoder.parses_text

theorem spans_of_spelledBy {type : FieldType} {field : Field} {bytes : Bytes}
    (htype : type.IsOf field) (h : field.SpelledBy bytes) : type.Spans bytes := by
  cases type with
  | u8 =>
    obtain ⟨value, rfl⟩ := htype
    obtain rfl := h
    rfl
  | u16 | u32 | i32 =>
    obtain ⟨value, rfl⟩ := htype
    obtain rfl := h
    exact BigEndian.length_digits ..
  | bool =>
    obtain ⟨value, rfl⟩ := htype
    obtain ⟨byte, rfl, -⟩ := h
    rfl
  | blob =>
    obtain ⟨value, rfl⟩ := htype
    exact ⟨value, Nat.lt_succ_of_le h.1, h.2⟩
  | text =>
    obtain ⟨value, rfl⟩ := htype
    cases value with
    | none => exact .inl h
    | some content => exact .inr ⟨content, h⟩

theorem exists_spelledBy_of_spans {type : FieldType} {bytes : Bytes} (h : type.Spans bytes) :
    ∃ field, type.IsOf field ∧ field.SpelledBy bytes := by
  cases type with
  | u8 =>
    obtain ⟨value, rfl⟩ := List.length_eq_one_iff.mp h
    exact ⟨_, ⟨value, rfl⟩, rfl⟩
  | u16 => exact ⟨_, ⟨UInt16.ofNat (BigEndian.value bytes), rfl⟩, (BigEndian.digits_u16 h).symm⟩
  | u32 => exact ⟨_, ⟨UInt32.ofNat (BigEndian.value bytes), rfl⟩, (BigEndian.digits_u32 h).symm⟩
  | i32 =>
    exact ⟨_, ⟨Int32.ofUInt32 (UInt32.ofNat (BigEndian.value bytes)), rfl⟩,
      (BigEndian.digits_u32 h).symm⟩
  | bool =>
    obtain ⟨byte, rfl⟩ := List.length_eq_one_iff.mp h
    exact ⟨_, ⟨byte != 0, rfl⟩, byte, rfl, rfl⟩
  | blob =>
    obtain ⟨value, hlength, hbytes⟩ := h
    exact ⟨_, ⟨value, rfl⟩, Nat.le_of_lt_succ hlength, hbytes⟩
  | text =>
    obtain hnone | ⟨content, hcontent⟩ := h
    · exact ⟨_, ⟨none, rfl⟩, hnone⟩
    · exact ⟨_, ⟨some content, rfl⟩, hcontent⟩

/-- Types span the bytes that spell fields of the types. -/
theorem allSpan_iff {types : List FieldType} {bytes : Bytes} : AllSpan types bytes ↔
    ∃ fields, List.Forall₂ IsOf types fields ∧ Field.AllSpelledBy fields bytes := by
  induction types generalizing bytes with
  | nil =>
    constructor
    · intro h
      exact ⟨[], .nil, h⟩
    · intro h
      obtain ⟨_, ⟨⟩, hbytes⟩ := h
      exact hbytes
  | cons type types ih =>
    constructor
    · intro h
      obtain ⟨front, back, hfront, hback, rfl⟩ := h
      obtain ⟨field, htype, hfield⟩ := exists_spelledBy_of_spans hfront
      obtain ⟨fields, htypes, hfields⟩ := ih.mp hback
      exact ⟨field :: fields, .cons htype htypes, front, back, hfield, hfields, rfl⟩
    · intro h
      obtain ⟨_, hall, hspelled⟩ := h
      cases hall with
      | cons htype htypes =>
        obtain ⟨front, back, hfield, hfields, rfl⟩ := hspelled
        exact ⟨front, back, spans_of_spelledBy htype hfield, ih.mpr ⟨_, htypes, hfields⟩, rfl⟩

end FieldType

/-- The types of the fields behind a request's code, or `none` for a type that is no request. -/
def MessageType.layout? : MessageType → Option (List FieldType)
  | addService => some [.u32, .blob, .blob]
  | removeService => some [.u32, .blob]
  | addPrefix => some [.u32, .u32, .blob, .u8, .bool, .bool, .bool]
  | removePrefix => some [.blob, .u8]
  | getTunnelName => some []
  | requestStateEvents => some []
  | requestPartitionEvents => some []
  | requestRoleEvents => some []
  | requestServiceEvents => some []
  | requestPrefixEvents => some []
  | _ => none

namespace Request

theorem exists_layout (request : Request) : ∃ layout, request.type.layout? = some layout ∧
    List.Forall₂ FieldType.IsOf layout request.fields := by
  cases request with
  | addService enterprise serviceData serverData =>
    exact ⟨_, rfl, .cons ⟨_, rfl⟩ (.cons ⟨_, rfl⟩ (.cons ⟨_, rfl⟩ .nil))⟩
  | removeService enterprise serviceData =>
    exact ⟨_, rfl, .cons ⟨_, rfl⟩ (.cons ⟨_, rfl⟩ .nil)⟩
  | addPrefix terms =>
    exact ⟨_, rfl, .cons ⟨_, rfl⟩ (.cons ⟨_, rfl⟩ (.cons ⟨_, rfl⟩ (.cons ⟨_, rfl⟩
      (.cons ⟨_, rfl⟩ (.cons ⟨_, rfl⟩ (.cons ⟨_, rfl⟩ .nil))))))⟩
  | removePrefix meshPrefix length => exact ⟨_, rfl, .cons ⟨_, rfl⟩ (.cons ⟨_, rfl⟩ .nil)⟩
  | getTunnelName => exact ⟨_, rfl, .nil⟩
  | subscribe kind => cases kind <;> exact ⟨_, rfl, .nil⟩

theorem exists_of_forall₂ {type : MessageType} {layout : List FieldType} {fields : List Field}
    (hlayout : type.layout? = some layout) (hfields : List.Forall₂ FieldType.IsOf layout fields) :
    ∃ request : Request, request.type = type ∧ request.fields = fields := by
  cases type with
  | addService =>
    cases hlayout
    obtain _ | ⟨⟨enterprise, rfl⟩, _ | ⟨⟨serviceData, rfl⟩, _ | ⟨⟨serverData, rfl⟩, _ | _⟩⟩⟩ :=
      hfields
    exact ⟨.addService enterprise serviceData serverData, rfl, rfl⟩
  | removeService =>
    cases hlayout
    obtain _ | ⟨⟨enterprise, rfl⟩, _ | ⟨⟨serviceData, rfl⟩, _ | _⟩⟩ := hfields
    exact ⟨.removeService enterprise serviceData, rfl, rfl⟩
  | addPrefix =>
    cases hlayout
    obtain _ | ⟨⟨preferredLifetime, rfl⟩, _ | ⟨⟨validLifetime, rfl⟩, _ | ⟨⟨meshPrefix, rfl⟩,
      _ | ⟨⟨length, rfl⟩, _ | ⟨⟨slaac, rfl⟩, _ | ⟨⟨onMesh, rfl⟩, _ | ⟨⟨stable, rfl⟩,
        _ | _⟩⟩⟩⟩⟩⟩⟩ := hfields
    exact ⟨.addPrefix ⟨preferredLifetime, validLifetime, meshPrefix, length, slaac, onMesh,
      stable⟩, rfl, rfl⟩
  | removePrefix =>
    cases hlayout
    obtain _ | ⟨⟨meshPrefix, rfl⟩, _ | ⟨⟨length, rfl⟩, _ | _⟩⟩ := hfields
    exact ⟨.removePrefix meshPrefix length, rfl, rfl⟩
  | getTunnelName =>
    cases hlayout
    cases hfields
    exact ⟨.getTunnelName, rfl, rfl⟩
  | requestStateEvents =>
    cases hlayout
    cases hfields
    exact ⟨.subscribe .state, rfl, rfl⟩
  | requestPartitionEvents =>
    cases hlayout
    cases hfields
    exact ⟨.subscribe .partition, rfl, rfl⟩
  | requestRoleEvents =>
    cases hlayout
    cases hfields
    exact ⟨.subscribe .role, rfl, rfl⟩
  | requestServiceEvents =>
    cases hlayout
    cases hfields
    exact ⟨.subscribe .service, rfl, rfl⟩
  | requestPrefixEvents =>
    cases hlayout
    cases hfields
    exact ⟨.subscribe .onMeshPrefix, rfl, rfl⟩
  | _ => cases hlayout

/-- A layout spans the bytes that spell a request of the layout's type. -/
theorem allSpan_iff {type : MessageType} {layout : List FieldType} {bytes : Bytes}
    (hlayout : type.layout? = some layout) : FieldType.AllSpan layout bytes ↔
      ∃ request : Request, request.type = type ∧ Field.AllSpelledBy request.fields bytes := by
  rw [FieldType.allSpan_iff]
  constructor
  · intro h
    obtain ⟨_, hfields, hspelled⟩ := h
    obtain ⟨request, htype, rfl⟩ := exists_of_forall₂ hlayout hfields
    exact ⟨request, htype, hspelled⟩
  · intro h
    obtain ⟨request, rfl, hspelled⟩ := h
    obtain ⟨_, hlayout', hfields⟩ := request.exists_layout
    rw [hlayout', Option.some.injEq] at hlayout
    exact ⟨request.fields, hlayout ▸ hfields, hspelled⟩

/-- The fields of a type are read, and exactly as the requests of the type are spelled. -/
def Reads (type : MessageType) : Prop :=
  ∃ decoder, decodeFields? type = some decoder ∧ decoder.Parses fun request bytes =>
    request.type = type ∧ Field.AllSpelledBy request.fields bytes

theorem reads_addService : Reads .addService := by
  refine ⟨_, rfl, (Decoder.parses_u32.then fun enterprise => Decoder.parses_blob.then
    fun serviceData => Decoder.parses_blob.then fun serverData => Decoder.readsFields_pure
      (addService enterprise serviceData serverData)).congr fun request bytes => ?_⟩
  constructor
  · intro h
    obtain ⟨_, ⟨_, _, rfl, _, _, rfl, _, _, rfl, rfl, rfl⟩, h⟩ := h
    exact ⟨rfl, h⟩
  · intro h
    obtain ⟨htype, h⟩ := h
    rcases request with _ | _ | _ | _ | _ | kind
    case addService => exact ⟨_, ⟨_, _, rfl, _, _, rfl, _, _, rfl, rfl, rfl⟩, h⟩
    case subscribe => cases kind <;> cases htype
    all_goals cases htype

theorem reads_removeService : Reads .removeService := by
  refine ⟨_, rfl, (Decoder.parses_u32.then fun enterprise => Decoder.parses_blob.then
    fun serviceData => Decoder.readsFields_pure
      (removeService enterprise serviceData)).congr fun request bytes => ?_⟩
  constructor
  · intro h
    obtain ⟨_, ⟨_, _, rfl, _, _, rfl, rfl, rfl⟩, h⟩ := h
    exact ⟨rfl, h⟩
  · intro h
    obtain ⟨htype, h⟩ := h
    rcases request with _ | _ | _ | _ | _ | kind
    case removeService => exact ⟨_, ⟨_, _, rfl, _, _, rfl, rfl, rfl⟩, h⟩
    case subscribe => cases kind <;> cases htype
    all_goals cases htype

theorem parses_terms : PrefixTerms.decode.Parses fun terms =>
    Field.AllSpelledBy terms.fields := by
  apply (Decoder.parses_u32.then fun preferredLifetime => Decoder.parses_u32.then
    fun validLifetime => Decoder.parses_blob.then fun meshPrefix => Decoder.parses_u8.then
    fun length => Decoder.parses_bool.then fun slaac => Decoder.parses_bool.then
    fun onMesh => Decoder.parses_bool.then fun stable => Decoder.readsFields_pure
      (⟨preferredLifetime, validLifetime, meshPrefix, length, slaac, onMesh, stable⟩ :
        PrefixTerms)).congr
  intro terms bytes
  constructor
  · intro h
    obtain ⟨_, ⟨_, _, rfl, _, _, rfl, _, _, rfl, _, _, rfl, _, _, rfl, _, _, rfl, _, _, rfl, rfl,
      rfl⟩, h⟩ := h
    exact h
  · intro h
    exact ⟨_, ⟨_, _, rfl, _, _, rfl, _, _, rfl, _, _, rfl, _, _, rfl, _, _, rfl, _, _, rfl, rfl,
      rfl⟩, h⟩

theorem reads_addPrefix : Reads .addPrefix := by
  refine ⟨_, rfl, (parses_terms.map addPrefix).congr fun request bytes => ?_⟩
  constructor
  · intro h
    obtain ⟨terms, h, rfl⟩ := h
    exact ⟨rfl, h⟩
  · intro h
    obtain ⟨htype, h⟩ := h
    rcases request with _ | _ | terms | _ | _ | kind
    case addPrefix => exact ⟨terms, h, rfl⟩
    case subscribe => cases kind <;> cases htype
    all_goals cases htype

theorem reads_removePrefix : Reads .removePrefix := by
  refine ⟨_, rfl, (Decoder.parses_blob.then fun meshPrefix => Decoder.parses_u8.then
    fun length => Decoder.readsFields_pure
      (removePrefix meshPrefix length)).congr fun request bytes => ?_⟩
  constructor
  · intro h
    obtain ⟨_, ⟨_, _, rfl, _, _, rfl, rfl, rfl⟩, h⟩ := h
    exact ⟨rfl, h⟩
  · intro h
    obtain ⟨htype, h⟩ := h
    rcases request with _ | _ | _ | _ | _ | kind
    case removePrefix => exact ⟨_, ⟨_, _, rfl, _, _, rfl, rfl, rfl⟩, h⟩
    case subscribe => cases kind <;> cases htype
    all_goals cases htype

theorem reads_type_of_fields_eq_nil (request : Request) (hfields : request.fields = []) :
    Reads request.type := by
  cases request with
  | getTunnelName =>
    refine ⟨_, rfl, (Decoder.parses_pure getTunnelName).congr fun request bytes => ?_⟩
    constructor
    · intro hgiven
      obtain ⟨rfl, rfl⟩ := hgiven
      exact ⟨rfl, rfl⟩
    · intro hgiven
      obtain ⟨htype, h⟩ := hgiven
      rcases request with _ | _ | _ | _ | _ | kind
      case getTunnelName => exact ⟨rfl, h⟩
      case subscribe => cases kind <;> cases htype
      all_goals cases htype
  | subscribe wanted =>
    have hdecoder : decodeFields? wanted.requestType = some (pure (subscribe wanted)) := by
      cases wanted <;> rfl
    refine ⟨_, hdecoder, (Decoder.parses_pure (subscribe wanted)).congr fun request bytes => ?_⟩
    constructor
    · intro hgiven
      obtain ⟨rfl, rfl⟩ := hgiven
      exact ⟨rfl, rfl⟩
    · intro hgiven
      obtain ⟨htype, h⟩ := hgiven
      rcases request with _ | _ | _ | _ | _ | kind
      case subscribe =>
        have hkind := congrArg MessageType.subscription? htype
        simp only [type, EventKind.subscription?_requestType, Option.some.injEq] at hkind
        exact ⟨congrArg subscribe hkind, h⟩
      all_goals cases wanted <;> cases htype
  | _ => cases hfields

theorem reads_of_layout? {type : MessageType} {layout : List FieldType}
    (hlayout : type.layout? = some layout) : Reads type := by
  cases type with
  | addService => exact reads_addService
  | removeService => exact reads_removeService
  | addPrefix => exact reads_addPrefix
  | removePrefix => exact reads_removePrefix
  | getTunnelName => exact reads_type_of_fields_eq_nil .getTunnelName rfl
  | requestStateEvents => exact reads_type_of_fields_eq_nil (.subscribe .state) rfl
  | requestPartitionEvents => exact reads_type_of_fields_eq_nil (.subscribe .partition) rfl
  | requestRoleEvents => exact reads_type_of_fields_eq_nil (.subscribe .role) rfl
  | requestServiceEvents => exact reads_type_of_fields_eq_nil (.subscribe .service) rfl
  | requestPrefixEvents => exact reads_type_of_fields_eq_nil (.subscribe .onMeshPrefix) rfl
  | _ => cases hlayout

/-- A request type with a layout has a decoder, and it reads exactly the requests of the type that
end the message. -/
theorem exists_decode? {type : MessageType} {layout : List FieldType}
    (hlayout : type.layout? = some layout) :
    ∃ decoder, decode? type = some decoder ∧ ∀ reader after request,
      decoder reader = .ok request after ↔
        (request.type = type ∧ Field.AllSpelledBy request.fields reader.rest) ∧
          after = ⟨reader.position + reader.rest.length, []⟩ := by
  obtain ⟨decoder, hdecoder, hparses⟩ := reads_of_layout? hlayout
  refine ⟨_, by rw [decode?, hdecoder, Option.map_some], fun reader after request => ?_⟩
  exact hparses.finish_eq_ok_iff

theorem decode?_eq_none {type : MessageType} (hlayout : type.layout? = none) :
    decode? type = none := by
  cases type with
  | response | invalid | tunnelNameResponse | event => rfl
  | _ => cases hlayout

/-- A body that is the code of a request and a spelling of its fields. -/
def HasBody (request : Request) (body : Bytes) : Prop :=
  ∃ rest, Field.AllSpelledBy request.fields rest ∧
    body = BigEndian.digits 2 request.type.code.toNat ++ rest

end Request

namespace Body

/-- The type code that a body begins with. -/
def code (body : Bytes) : UInt16 := UInt16.ofNat (BigEndian.value (body.take 2))

/-- The layout that a type code requires behind it, if it is the code of a request. -/
def layout? (code : UInt16) : Option (List FieldType) :=
  (MessageType.ofCode? code).bind MessageType.layout?

/-- A body that is too short for a type code, or a request's code with a rest that is not spanned by
the request's layout. -/
def Malformed (body : Bytes) : Prop :=
  body.length < 2 ∨
    ∃ layout, layout? (code body) = some layout ∧ ¬ FieldType.AllSpan layout (body.drop 2)

theorem eq_code_append {body : Bytes} (hlength : 2 ≤ body.length) :
    body = BigEndian.digits 2 (code body).toNat ++ body.drop 2 := by
  have htake : (body.take 2).length = 2 := by
    rw [List.length_take]
    omega
  rw [code, BigEndian.digits_u16 htake, List.take_append_drop]

@[simp] theorem code_append (value : UInt16) (rest : Bytes) :
    code (BigEndian.digits 2 value.toNat ++ rest) = value := by
  have hvalue : value.toNat < BigEndian.span 2 := value.toNat_lt
  rw [code, List.take_left' (BigEndian.length_digits ..), BigEndian.value_digits hvalue,
    UInt16.ofNat_toNat]

theorem code_of_hasBody {request : Request} {body : Bytes} (h : request.HasBody body) :
    code body = request.type.code := by
  obtain ⟨rest, -, rfl⟩ := h
  exact code_append ..

theorem not_malformed_of_hasBody {request : Request} {body : Bytes} (h : request.HasBody body) :
    ¬ Malformed body := by
  obtain ⟨rest, hspelled, rfl⟩ := h
  intro hgiven
  rcases hgiven with hlength | ⟨layout, hlayout, hspan⟩
  · rw [List.length_append, BigEndian.length_digits] at hlength
    omega
  · rw [code_append, layout?, MessageType.ofCode?_code, Option.bind_some] at hlayout
    rw [List.drop_left' (BigEndian.length_digits ..)] at hspan
    exact hspan ((Request.allSpan_iff hlayout).mpr ⟨request, rfl, hspelled⟩)

theorem not_malformed_of_layout?_eq_none {body : Bytes} (hlength : 2 ≤ body.length)
    (hlayout : layout? (code body) = none) : ¬ Malformed body := by
  intro h
  rcases h with hshort | ⟨layout, hsome, -⟩
  · omega
  · rw [hlayout] at hsome
    cases hsome

/-- A body that is not malformed has the code of no request, or is the body of a request. -/
theorem not_malformed_iff {body : Bytes} : ¬ Malformed body ↔
    2 ≤ body.length ∧ layout? (code body) = none ∨ ∃ request : Request, request.HasBody body := by
  constructor
  · intro hwell
    have hlength : 2 ≤ body.length := Nat.not_lt.mp fun h => hwell (.inl h)
    cases hlayout : layout? (code body) with
    | none => exact .inl ⟨hlength, rfl⟩
    | some layout =>
      have hspan : FieldType.AllSpan layout (body.drop 2) :=
        Classical.not_not.mp fun h => hwell (.inr ⟨layout, hlayout, h⟩)
      obtain ⟨type, htype, hlayout⟩ := Option.bind_eq_some_iff.mp hlayout
      obtain ⟨request, rfl, hspelled⟩ := (Request.allSpan_iff hlayout).mp hspan
      refine .inr ⟨request, body.drop 2, hspelled, ?_⟩
      rw [MessageType.code_of_ofCode? htype]
      exact eq_code_append hlength
  · intro h
    obtain ⟨hlength, hlayout⟩ | ⟨request, hbody⟩ := h
    · exact not_malformed_of_layout?_eq_none hlength hlayout
    · exact not_malformed_of_hasBody hbody

end Body

end MeshControl
