import MeshControl.Message.Reply
import MeshControl.Proofs.Wire.Building

/-!
How long messages are. The size of a field is the number of bytes that it is written in, and the
sizes that a server's messages announce are the sums of the sizes of their fields. So the room that
is reserved for a message that can be written is exactly the room that it takes up.
-/

namespace MeshControl

namespace Field

/-- The number of bytes that a field is written in. -/
def size : Field → Nat
  | u8 _ => 1
  | u16 _ => 2
  | u32 _ => 4
  | i32 _ => 4
  | bool _ => 1
  | blob value => 2 + value.length
  | text value => 2 + (value.map String.utf8ByteSize).getD 0
  | count _ => 2

/-- The number of bytes that fields are written in. -/
def totalSize : List Field → Nat
  | [] => 0
  | field :: fields => field.size + totalSize fields

theorem length_of_bytes? {field : Field} {bytes : Bytes} (h : field.bytes? = some bytes) :
    bytes.length = field.size := by
  have hspelled := spelledBy_of_bytes? h
  cases field with
  | u8 value =>
    obtain rfl := hspelled
    rfl
  | u16 value | u32 value | i32 value =>
    obtain rfl := hspelled
    exact BigEndian.length_digits ..
  | bool value =>
    obtain ⟨byte, rfl, -⟩ := hspelled
    rfl
  | blob value =>
    obtain ⟨-, rfl⟩ := hspelled
    rw [List.length_append, BigEndian.length_digits]
    rfl
  | text value =>
    cases value with
    | none =>
      obtain rfl := hspelled
      exact BigEndian.length_digits ..
    | some text =>
      obtain ⟨-, rfl⟩ := hspelled
      rw [List.length_append, BigEndian.length_digits]
      rfl
  | count value =>
    obtain ⟨-, rfl⟩ := hspelled
    exact BigEndian.length_digits ..

theorem length_of_allBytes? {fields : List Field} {bytes : Bytes}
    (h : allBytes? fields = some bytes) : bytes.length = totalSize fields := by
  induction fields generalizing bytes with
  | nil =>
    simp only [allBytes?, Option.some.injEq] at h
    rw [← h]
    rfl
  | cons field fields ih =>
    obtain ⟨front, back, hfield, hfields, rfl⟩ := allBytes?_cons.mp h
    rw [List.length_append, length_of_bytes? hfield, ih hfields]
    rfl

theorem totalSize_append (first second : List Field) :
    totalSize (first ++ second) = totalSize first + totalSize second := by
  induction first with
  | nil => exact (Nat.zero_add _).symm
  | cons field fields ih => rw [List.cons_append, totalSize, ih, totalSize, Nat.add_assoc]

end Field

theorem Service.totalSize_fields (service : Service) :
    Field.totalSize service.fields = service.size := by
  simp only [fields, size, Field.totalSize, Field.size]
  omega

theorem OnMeshPrefix.totalSize_fields (entry : OnMeshPrefix) :
    Field.totalSize entry.fields = 14 := by
  simp only [fields, Field.totalSize, Field.size, entry.meshPrefix.length_bytes]

namespace Event

theorem totalSize_services (entries : List Service) :
    Field.totalSize (entries.flatMap Service.fields) =
      entries.foldr (fun entry rest => entry.size + rest) 0 := by
  induction entries with
  | nil => rfl
  | cons entry entries ih =>
    rw [List.flatMap_cons, Field.totalSize_append, Service.totalSize_fields, ih, List.foldr_cons]

theorem totalSize_prefixes (entries : List OnMeshPrefix) :
    Field.totalSize (entries.flatMap OnMeshPrefix.fields) = entries.length * 14 := by
  induction entries with
  | nil => rfl
  | cons entry entries ih =>
    rw [List.flatMap_cons, Field.totalSize_append, OnMeshPrefix.totalSize_fields, ih,
      List.length_cons]
    omega

theorem totalSize_fields (event : Event) : Field.totalSize event.fields = event.size := by
  cases event with
  | state value | partition value | role value => rfl
  | services entries =>
    simp only [fields, valueFields, Field.totalSize, totalSize_services, Field.size, size]
    omega
  | prefixes entries =>
    simp only [fields, valueFields, Field.totalSize, totalSize_prefixes, Field.size, size]
    omega

end Event

theorem Reply.totalSize_fields (reply : Reply) : Field.totalSize reply.fields = reply.size := by
  cases reply with
  | response code status => rfl
  | tunnelName code status name =>
    simp only [fields, Field.totalSize, Field.size, size]
    omega

/-- The size that a message announces is the size of its fields. -/
theorem ServerMessage.totalSize_fields (message : ServerMessage) :
    Field.totalSize message.fields = message.size := by
  cases message with
  | reply answer => exact answer.totalSize_fields
  | event value => exact value.totalSize_fields

end MeshControl
