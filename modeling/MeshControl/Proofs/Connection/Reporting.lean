import MeshControl.Backend.Memory
import MeshControl.Proofs.Connection.Handling

/-!
When a change of the network data is reported. A request changes nothing but the value of its own
kind, and only with success; but whether the kind is then reported hangs on the stream of the peer
that asked. If the reply is taken whole, the kind is reported. If not, the backend keeps its new
value, the connection is closed and nothing is reported, so that no other subscriber is told of the
change.
-/

namespace MeshControl

namespace MemoryBackend

variable {backend : MemoryBackend}

theorem currentEvent_addService (service : Service) (kind : EventKind) :
    Backend.currentEvent (backend.addService service).2 kind = Backend.currentEvent backend kind ∨
      EventKind.service = kind := by
  cases kind with
  | service => exact .inr rfl
  | _ => exact .inl rfl

theorem currentEvent_removeService (enterprise : UInt32) (serviceData : Bytes) (kind : EventKind) :
    Backend.currentEvent (backend.removeService enterprise serviceData).2 kind =
        Backend.currentEvent backend kind ∨
      (backend.removeService enterprise serviceData).1 = .noError ∧ EventKind.service = kind := by
  unfold removeService
  split
  · cases kind with
    | service => exact .inr ⟨rfl, rfl⟩
    | _ => exact .inl rfl
  · exact .inl rfl

theorem currentEvent_addPrefix (entry : OnMeshPrefix) (kind : EventKind) :
    Backend.currentEvent (backend.addPrefix entry).2 kind = Backend.currentEvent backend kind ∨
      EventKind.onMeshPrefix = kind := by
  cases kind with
  | onMeshPrefix => exact .inr rfl
  | _ => exact .inl rfl

theorem currentEvent_removePrefix (meshPrefix : MeshPrefix) (length : UInt8) (kind : EventKind) :
    Backend.currentEvent (backend.removePrefix meshPrefix length).2 kind =
        Backend.currentEvent backend kind ∨
      (backend.removePrefix meshPrefix length).1 = .noError ∧ EventKind.onMeshPrefix = kind := by
  unfold removePrefix
  split
  · cases kind with
    | onMeshPrefix => exact .inr ⟨rfl, rfl⟩
    | _ => exact .inl rfl
  · exact .inl rfl

/-- A request that succeeds changes the value of its kind alone, and one that fails no value. -/
theorem currentEvent_of_change? {request : Request} {change : Change MemoryBackend}
    (hchange : Backend.change? backend request = some change) (kind : EventKind) :
    Backend.currentEvent change.backend kind = Backend.currentEvent backend kind ∨
      change.status = .noError ∧ change.kind = kind := by
  cases request with
  | addService enterprise serviceData serverData =>
    obtain rfl := Option.some.inj hchange
    exact (currentEvent_addService _ kind).imp_right fun h => ⟨rfl, h⟩
  | removeService enterprise serviceData =>
    obtain rfl := Option.some.inj hchange
    exact currentEvent_removeService enterprise serviceData kind
  | addPrefix terms =>
    unfold Backend.change? at hchange
    cases hmesh : MeshPrefix.ofBytes? terms.meshPrefix with
    | none =>
      simp only [hmesh, Option.some.injEq] at hchange
      rw [← hchange]
      exact .inl rfl
    | some meshPrefix =>
      simp only [hmesh, Option.some.injEq] at hchange
      rw [← hchange]
      exact (currentEvent_addPrefix _ kind).imp_right fun h => ⟨rfl, h⟩
  | removePrefix bytes length =>
    unfold Backend.change? at hchange
    cases hmesh : MeshPrefix.ofBytes? bytes with
    | none =>
      simp only [hmesh, Option.some.injEq] at hchange
      rw [← hchange]
      exact .inl rfl
    | some meshPrefix =>
      simp only [hmesh, Option.some.injEq] at hchange
      rw [← hchange]
      exact currentEvent_removePrefix meshPrefix length kind
  | getTunnelName => cases hchange
  | subscribe wanted => cases hchange

end MemoryBackend

theorem Change.contains_changed {β : Type} {change : Change β} (hok : change.status = .noError) :
    change.changed.contains change.kind = true := by
  simp [changed, hok, Status.isOk, EventSet.single]

namespace Connection

/-- The only write behind the handled message is that of a reply with success, and a kind is
reported exactly if that write took the reply whole, which is when the connection stays open. -/
def ReportsIfTaken (before : Connection) (kind : EventKind) (changed : EventSet)
    (after : Connection) : Prop :=
  ∃ payload outcome,
    (ServerMessage.reply (.response (Body.code before.message) .noError)).payload? = some payload ∧
    before.outlet.Wrote (FrameStream.frame payload) outcome after.outlet ∧
    (changed.contains kind = true ↔ outcome = .took (FrameStream.frame payload).length) ∧
    (after.isOpen = true ↔ outcome = .took (FrameStream.frame payload).length)

theorem reportsIfTaken_of_currentEvent_ne {connection after : Connection}
    {backend left : MemoryBackend} {changed : EventSet} {kind : EventKind}
    (hopen : connection.isOpen = true)
    (hhandle : connection.handle backend = (changed, after, left))
    (hdiffers : Backend.currentEvent left kind ≠ Backend.currentEvent backend kind) :
    connection.ReportsIfTaken kind changed after := by
  obtain ⟨_, _, _, hresult, hhandles⟩ := handles_handle connection backend hopen
  obtain ⟨rfl, rfl, rfl⟩ := hhandle.symm.trans hresult
  cases hhandles with
  | malformed | foreign | named | unanswered | subscribed => exact absurd rfl hdiffers
  | changed hbody hchange hreply =>
    obtain hsame | ⟨hok, hkind⟩ := MemoryBackend.currentEvent_of_change? hchange kind
    · exact absurd hsame hdiffers
    · rw [hok, ← Body.code_of_hasBody hbody] at hreply
      cases hreply with
      | unwritable output hnone => cases hnone
      | taken output hpayload hwrote =>
        refine ⟨_, _, hpayload, hwrote, ?_, ?_⟩
        · rw [if_pos rfl, ← hkind]
          exact iff_of_true (Change.contains_changed hok) rfl
        · exact iff_of_true hopen rfl
      | broken output hpayload hwrote hpart =>
        refine ⟨_, _, hpayload, hwrote, ?_, ?_⟩
        · simp only [Bool.false_eq_true, if_false, EventSet.contains_empty, hpart]
        · exact iff_of_false Bool.false_ne_true hpart

/-- A change of the services or the prefixes is reported exactly if the stream of the peer that
asked for it took the reply whole. -/
theorem change_reported_iff_reply_taken {connection after : Connection}
    {backend left : MemoryBackend} {changed : EventSet} (hopen : connection.isOpen = true)
    (hhandle : connection.handle backend = (changed, after, left)) :
    (left.services.toList ≠ backend.services.toList →
      connection.ReportsIfTaken .service changed after) ∧
    (left.prefixes.toList ≠ backend.prefixes.toList →
      connection.ReportsIfTaken .onMeshPrefix changed after) := by
  constructor
  · intro hdiffers
    apply reportsIfTaken_of_currentEvent_ne hopen hhandle
    exact fun h => hdiffers (Event.services.inj h)
  · intro hdiffers
    apply reportsIfTaken_of_currentEvent_ne hopen hhandle
    exact fun h => hdiffers (Event.prefixes.inj h)

/-- A connection with the request to publish a service. Its stream takes half of the reply. -/
def cutReply : Connection where
  id := 1
  input := ⟨#[0, 2, 0, 0, 0, 1, 0, 1, 7, 0, 2, 8, 9], 13, Nat.le_refl 13⟩
  outlet := { upcoming := [.half] }

/-- The service is published and nobody is told. -/
theorem change_reported_iff_reply_taken_cutReply :
    cutReply.isOpen = true ∧ ∃ changed after left,
      cutReply.handle ({} : MemoryBackend) = (changed, after, left) ∧
        left.services.toList = [⟨1, [7], [8, 9]⟩] ∧
        cutReply.ReportsIfTaken .service changed after ∧
        changed.contains .service = false ∧ after.isOpen = false := by
  have hleft : (cutReply.handle ({} : MemoryBackend)).2.2.services.toList = [⟨1, [7], [8, 9]⟩] := by
    decide +kernel
  have hsilent : (cutReply.handle ({} : MemoryBackend)).1.contains .service = false := by
    decide +kernel
  have hclosed : (cutReply.handle ({} : MemoryBackend)).2.1.isOpen = false := by decide +kernel
  rcases hhandle : cutReply.handle ({} : MemoryBackend) with ⟨changed, after, left⟩
  rw [hhandle] at hleft hsilent hclosed
  refine ⟨rfl, changed, after, left, rfl, hleft, ?_, hsilent, hclosed⟩
  refine (change_reported_iff_reply_taken rfl hhandle).1 ?_
  rw [hleft]
  exact List.cons_ne_nil _ _

end Connection

end MeshControl
