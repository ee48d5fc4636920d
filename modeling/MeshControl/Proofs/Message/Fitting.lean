import MeshControl.Proofs.Message.Decoding
import MeshControl.Proofs.Message.Grammar
import MeshControl.Proofs.Message.Sizes

/-!
Which messages fit into a frame. A field that is no longer than a body may be can be written,
because its length word reaches that far; so a request, and a message of a server, has a body
exactly if its type code and its fields take up at most 65535 bytes (`Request.exists_payload?_iff`,
`ServerMessage.exists_payload?_iff`).
-/

namespace MeshControl

/-- A length word tells lengths up to the longest payload. -/
theorem BigEndian.lt_span_two_iff {length : Nat} : length < span 2 ↔ length ≤ maxPayload :=
  Nat.lt_succ_iff (n := maxPayload)

/-- Bodies that are short enough for a length word stay so with one more that is. -/
theorem BigEndian.lt_span_two_append {bodies : List Bytes} {body : Bytes}
    (hbodies : ∀ body ∈ bodies, body.length < span 2) (hbody : body.length ≤ maxPayload) :
    ∀ other ∈ bodies ++ [body], other.length < span 2 := by
  intro other hother
  rcases List.mem_append.mp hother with hold | hnew
  · exact hbodies other hold
  · rw [List.mem_singleton.mp hnew]
    exact lt_span_two_iff.mpr hbody

namespace Field

/-- Whether a list's length can be told in sixteen bits. Every other field counts nothing. -/
def CountsFew : Field → Prop
  | count value => value ≤ maxPayload
  | _ => True

theorem exists_bytes? {field : Field} (hfew : field.CountsFew) (hsize : field.size ≤ maxPayload) :
    ∃ bytes, field.bytes? = some bytes := by
  cases field with
  | u8 value | u16 value | u32 value | i32 value | bool value => exact ⟨_, rfl⟩
  | blob value =>
    have hlength : value.length ≤ 65535 := Nat.le_trans (Nat.le_add_left ..) hsize
    exact ⟨_, bytes?_of_pieces (if_pos hlength)⟩
  | text value =>
    cases value with
    | none => exact ⟨_, rfl⟩
    | some text =>
      have hlength : (Utf8.write text).length < 65535 := by
        change 2 + (Utf8.write text).length ≤ 65535 at hsize
        omega
      exact ⟨_, bytes?_of_pieces (if_pos hlength)⟩
  | count value =>
    have hlength : value ≤ 65535 := hfew
    exact ⟨_, bytes?_of_pieces (if_pos hlength)⟩

theorem exists_allBytes? {fields : List Field} (hfew : ∀ field ∈ fields, field.CountsFew)
    (hsize : totalSize fields ≤ maxPayload) : ∃ bytes, allBytes? fields = some bytes := by
  induction fields with
  | nil => exact ⟨[], rfl⟩
  | cons field fields ih =>
    simp only [totalSize] at hsize
    obtain ⟨front, hfront⟩ := exists_bytes? (hfew field (List.mem_cons_self ..)) (by omega)
    obtain ⟨back, hback⟩ :=
      ih (fun other hother => hfew other (List.mem_cons_of_mem _ hother)) (by omega)
    exact ⟨front ++ back, allBytes?_cons.mpr ⟨front, back, hfront, hback, rfl⟩⟩

end Field

namespace Frame

variable {type : MessageType} {fields : List Field}

theorem totalSize_le_of_payload? {payload : Bytes} (h : payload? type fields = some payload) :
    2 + Field.totalSize fields ≤ maxPayload := by
  obtain ⟨bytes, hbytes, hlength, -⟩ := payload?_eq_some_iff.mp h
  rwa [Field.length_of_allBytes? hbytes] at hlength

theorem length_payload {payload : Bytes} (h : payload? type fields = some payload) :
    payload.length = 2 + Field.totalSize fields := by
  obtain ⟨bytes, hbytes, -, rfl⟩ := payload?_eq_some_iff.mp h
  rw [List.length_append, BigEndian.length_digits, Field.length_of_allBytes? hbytes]

theorem length_payload_le {payload : Bytes} (h : payload? type fields = some payload) :
    payload.length ≤ maxPayload :=
  length_payload h ▸ totalSize_le_of_payload? h

theorem length_payload_lt {payload : Bytes} (h : payload? type fields = some payload) :
    payload.length < BigEndian.span 2 :=
  BigEndian.lt_span_two_iff.mpr (length_payload_le h)

/-- Fields that are not too long together make a body, if no list among them is too long to count.
-/
theorem exists_payload? (hfew : ∀ field ∈ fields, field.CountsFew)
    (hsize : 2 + Field.totalSize fields ≤ maxPayload) :
    ∃ payload, payload? type fields = some payload := by
  obtain ⟨bytes, hbytes⟩ := Field.exists_allBytes? hfew (by omega)
  rw [← Field.length_of_allBytes? hbytes] at hsize
  exact ⟨_, payload?_eq_some_iff.mpr ⟨bytes, hbytes, hsize, rfl⟩⟩

end Frame

namespace Request

/-- The body of a request, if it has one. -/
def payload? (request : Request) : Option Bytes :=
  Frame.payload? request.type request.fields

theorem countsFew_fields (request : Request) : ∀ field ∈ request.fields, field.CountsFew := by
  intro field hfield
  cases request <;>
    simp only [fields, PrefixTerms.fields, List.mem_cons, List.not_mem_nil, or_false] at hfield
  case addService => rcases hfield with rfl | rfl | rfl <;> trivial
  case removeService => rcases hfield with rfl | rfl <;> trivial
  case addPrefix => rcases hfield with rfl | rfl | rfl | rfl | rfl | rfl | rfl <;> trivial
  case removePrefix => rcases hfield with rfl | rfl <;> trivial

/-- A request has a body exactly if its type code and its fields take up at most 65535 bytes. -/
theorem exists_payload?_iff (request : Request) :
    (∃ payload, request.payload? = some payload) ↔
      2 + Field.totalSize request.fields ≤ maxPayload := by
  constructor
  · intro h
    obtain ⟨payload, hpayload⟩ := h
    exact Frame.totalSize_le_of_payload? hpayload
  · exact Frame.exists_payload? request.countsFew_fields

theorem hasBody_of_payload? {request : Request} {payload : Bytes}
    (h : request.payload? = some payload) : request.HasBody payload := by
  obtain ⟨bytes, hbytes, -, rfl⟩ := Frame.payload?_eq_some_iff.mp h
  exact ⟨bytes, Field.allSpelledBy_of_allBytes? hbytes, rfl⟩

theorem payload?_of_encode_eq_ok {request : Request} {before after : Buffer} {frame : Bytes}
    (h : request.encode before = .ok frame after) :
    ∃ payload, request.payload? = some payload ∧ frame = FrameStream.frame payload :=
  Frame.payload?_of_build_eq_ok h

theorem exists_encode_eq_ok {request : Request} {payload : Bytes} (before : Buffer)
    (h : request.payload? = some payload) :
    ∃ after, request.encode before = .ok (FrameStream.frame payload) after :=
  Frame.exists_build_eq_ok before h (by decide)

end Request

namespace Event

theorem eight_mul_le_foldr_size (entries : List Service) :
    8 * entries.length ≤ entries.foldr (fun entry rest => entry.size + rest) 0 := by
  induction entries with
  | nil => exact Nat.le_refl 0
  | cons entry entries ih =>
    have hentry : 8 ≤ entry.size := by
      simp only [Service.size]
      omega
    simp only [List.length_cons, List.foldr_cons]
    omega

theorem countsFew_fields {event : Event} (hsize : event.size ≤ maxPayload) :
    ∀ field ∈ event.fields, field.CountsFew := by
  intro field hfield
  cases event with
  | state value | partition value | role value =>
    simp only [fields, valueFields, List.mem_cons, List.not_mem_nil, or_false] at hfield
    rcases hfield with rfl | rfl <;> trivial
  | services entries =>
    simp only [size] at hsize
    have := eight_mul_le_foldr_size entries
    simp only [fields, valueFields, List.mem_cons, List.mem_flatMap] at hfield
    rcases hfield with rfl | rfl | ⟨entry, -, hentry⟩
    · trivial
    · simp only [Field.CountsFew]
      omega
    · simp only [Service.fields, List.mem_cons, List.not_mem_nil, or_false] at hentry
      rcases hentry with rfl | rfl | rfl <;> trivial
  | prefixes entries =>
    simp only [size] at hsize
    simp only [fields, valueFields, List.mem_cons, List.mem_flatMap] at hfield
    rcases hfield with rfl | rfl | ⟨entry, -, hentry⟩
    · trivial
    · simp only [Field.CountsFew]
      omega
    · simp only [OnMeshPrefix.fields, List.mem_cons, List.not_mem_nil, or_false] at hentry
      rcases hentry with rfl | rfl | rfl | rfl | rfl <;> trivial

end Event

namespace ServerMessage

theorem countsFew_fields {message : ServerMessage} (hsize : message.size ≤ maxPayload) :
    ∀ field ∈ message.fields, field.CountsFew := by
  rcases message with (⟨code, status⟩ | ⟨code, status, name⟩) | event
  · intro field hfield
    simp only [fields, Reply.fields, List.mem_cons, List.not_mem_nil, or_false] at hfield
    rcases hfield with rfl | rfl <;> trivial
  · intro field hfield
    simp only [fields, Reply.fields, List.mem_cons, List.not_mem_nil, or_false] at hfield
    rcases hfield with rfl | rfl | rfl <;> trivial
  · exact Event.countsFew_fields hsize

/-- Whether a message is short enough for a frame. -/
def Fits (message : ServerMessage) : Prop := 2 + message.size ≤ maxPayload

/-- A message of a server has a body exactly if its type code and its fields take up at most 65535
bytes. -/
theorem exists_payload?_iff (message : ServerMessage) :
    (∃ payload, message.payload? = some payload) ↔ message.Fits := by
  unfold Fits
  constructor
  · intro h
    obtain ⟨payload, hpayload⟩ := h
    rw [← message.totalSize_fields]
    exact Frame.totalSize_le_of_payload? hpayload
  · intro hsize
    refine Frame.exists_payload? (countsFew_fields (Nat.le_trans (Nat.le_add_left ..) hsize)) ?_
    rwa [message.totalSize_fields]

theorem payload?_eq_none_iff (message : ServerMessage) :
    message.payload? = none ↔ ¬ message.Fits := by
  rw [← message.exists_payload?_iff, ← Option.isSome_iff_exists, Bool.not_eq_true,
    Option.isSome_eq_false_iff, Option.isNone_iff_eq_none]

theorem fits_response (code : UInt16) (status : Status) : (reply (.response code status)).Fits := by
  change 2 + 6 ≤ 65535
  decide

theorem fits_tunnelName_none (code : UInt16) (status : Status) :
    (reply (.tunnelName code status none)).Fits := by
  change 2 + (8 + 0) ≤ 65535
  decide

theorem fits_tunnelName_some_iff (code : UInt16) (status : Status) (name : String) :
    (reply (.tunnelName code status (some name))).Fits ↔ name.utf8ByteSize ≤ 65525 := by
  change 2 + (8 + name.utf8ByteSize) ≤ 65535 ↔ _
  omega

/-- The body of a message fits into the room that is reserved for it. -/
theorem space_le {message : ServerMessage} {payload : Bytes}
    (hpayload : message.payload? = some payload) :
    2 * (message.size + Frame.headerSize) ≤ maxCapacity := by
  have hfits := message.exists_payload?_iff.mp ⟨payload, hpayload⟩
  simp only [Fits, Frame.headerSize, maxCapacity, maxPayload] at hfits ⊢
  omega

end ServerMessage

end MeshControl
