import MeshControl.Backend.Memory
import MeshControl.Proofs.Backend.Recorded
import MeshControl.Proofs.Connection.Answering

/-!
The messages that are answered are those that the grammar of requests does not rule out. A malformed
message closes its connection and does nothing else: the backend is asked for no change, the stream
is offered no byte, and the subscriptions stay. Any other message is received without a failure as
what it means, and the reply to that, which repeats its type code, is attempted whatever the stream
makes of it. A prefix of the wrong length is answered so too, without the backend being asked.
-/

namespace MeshControl

/-- A reply is attempted: its frame is offered to the stream before anything else, and unless it is
taken whole the connection is closed and nothing is offered behind it. A reply without a body is not
offered, which closes the connection as well. -/
structure Connection.Attempts (before : Connection) (reply : Reply) (after : Connection) :
    Prop where
  offered : ∀ payload, (ServerMessage.reply reply).payload? = some payload →
    ∃ outcome outlet, before.outlet.Wrote (FrameStream.frame payload) outcome outlet ∧
      outlet.log <:+ after.outlet.log ∧
      (outcome ≠ .took (FrameStream.frame payload).length →
        after.outlet = outlet ∧ after.isOpen = false)
  unwritable : (ServerMessage.reply reply).payload? = none →
    after.outlet = before.outlet ∧ after.isOpen = false

/-- A status always has a body, so it is offered, and the connection is closed only if it was not
taken whole. -/
theorem Connection.Sends.wrote_response {before after : Connection} {code : UInt16}
    {status : Status} {whole : Bool}
    (h : before.Sends (.reply (.response code status)) whole after)
    (hopen : before.isOpen = true) :
    ∃ payload outcome, (ServerMessage.reply (.response code status)).payload? = some payload ∧
      before.outlet.Wrote (FrameStream.frame payload) outcome after.outlet ∧
      (outcome = .took (FrameStream.frame payload).length → after.isOpen = true) := by
  cases h with
  | unwritable output hnone =>
    exact absurd (ServerMessage.fits_response ..) ((ServerMessage.payload?_eq_none_iff _).mp hnone)
  | taken output hpayload hwrote => exact ⟨_, _, hpayload, hwrote, fun _ => hopen⟩
  | broken output hpayload hwrote hpart =>
    exact ⟨_, _, hpayload, hwrote, fun h => absurd h hpart⟩

/-- A request that concerns a prefix which does not have eight bytes. -/
def Request.HasMisfitPrefix : Request → Prop
  | addPrefix terms => terms.meshPrefix.length ≠ MeshPrefix.size
  | removePrefix meshPrefix _ => meshPrefix.length ≠ MeshPrefix.size
  | _ => False

section

variable {β : Type} [Backend β]

theorem Backend.change?_of_hasMisfitPrefix {request : Request} (backend : β)
    (hmisfit : request.HasMisfitPrefix) :
    Backend.change? backend request = some ⟨.invalid, .onMeshPrefix, backend⟩ := by
  cases request with
  | addPrefix terms => simp only [change?, MeshPrefix.ofBytes?, dif_neg hmisfit]
  | removePrefix meshPrefix length => simp only [change?, MeshPrefix.ofBytes?, dif_neg hmisfit]
  | _ => cases hmisfit

namespace Connection

variable {connection : Connection}

theorem handle_of_hasMisfitPrefix {request : Request} (backend : β)
    (hopen : connection.isOpen = true) (hbody : request.HasBody connection.message)
    (hmisfit : request.HasMisfitPrefix) :
    ∃ whole after, (connection.parsed request).Sends
        (.reply (.response request.type.code .invalid)) whole after ∧
      connection.handle backend = (.empty, after, backend) := by
  obtain ⟨whole, after, hsends, hhandle⟩ :=
    handle_of_change backend hopen hbody (Backend.change?_of_hasMisfitPrefix backend hmisfit)
  refine ⟨whole, after, hsends, ?_⟩
  rw [hhandle]
  cases whole <;> rfl

theorem Answers.attempts {after : Connection} {backend : β} {received : Option Request}
    {whole : Bool} (h : connection.Answers backend received whole after) :
    connection.Attempts (Backend.replyTo backend (Body.code connection.message) received)
      after where
  offered payload hpayload := by
    have hconveys := h.conveys
    rw [Backend.answers, List.map_cons, hpayload] at hconveys
    rw [h.isOpen_eq]
    exact hconveys.exists_wrote
  unwritable hnone := by
    have hconveys := h.conveys
    rw [Backend.answers, List.map_cons, hnone] at hconveys
    rw [h.isOpen_eq]
    exact hconveys.eq_of_none

/-- A malformed message closes its connection and has no other effect. Any other message is received
as what it means, and the reply to that, which repeats the type code of the message, is attempted;
it has a body unless it is a name of the tunnel that is too long for a frame. A prefix that does not
have eight bytes is invalid without the backend being asked. -/
theorem handle_follows_grammar (connection : Connection) (backend : β)
    (hopen : connection.isOpen = true) :
    (Body.Malformed connection.message → ∃ after,
      connection.handle backend = (.empty, after, backend) ∧
      (∀ calls, (connection.handle (Recorded.mk backend calls)).2.2.calls = calls) ∧
      after.isOpen = false ∧ after.outlet = connection.outlet ∧
      after.subscriptions = connection.subscriptions) ∧
    (¬ Body.Malformed connection.message → ∃ received whole after,
      let reply := Backend.replyTo backend (Body.code connection.message) received
      Body.Means connection.message received ∧
      (∃ position, Exchange.receive connection =
        .ok received (connection.marked position (Body.code connection.message))) ∧
      connection.handle backend =
        (if whole then Backend.changedBy backend received else .empty, after,
          Backend.after backend received) ∧
      connection.Answers backend received whole after ∧
      reply.requestCode = Body.code connection.message ∧ connection.Attempts reply after ∧
      ((ServerMessage.reply reply).payload? = none ↔ received = some .getTunnelName ∧
        ∃ name, Backend.tunnelName backend = .ok name ∧ 65525 < name.utf8ByteSize)) ∧
    ∀ request : Request, request.HasBody connection.message → request.HasMisfitPrefix →
      ∃ after payload outcome, connection.handle backend = (.empty, after, backend) ∧
        (∀ calls, (connection.handle (Recorded.mk backend calls)).2.2.calls = calls) ∧
        (ServerMessage.reply (.response request.type.code .invalid)).payload? = some payload ∧
        connection.outlet.Wrote (FrameStream.frame payload) outcome after.outlet ∧
        (outcome = .took (FrameStream.frame payload).length → after.isOpen = true) := by
  refine ⟨fun hmalformed => ?_, fun hwell => ?_, fun request hbody hmisfit => ?_⟩
  · obtain ⟨position, code, hhandle⟩ := handle_of_malformed backend hopen hmalformed
    refine ⟨_, hhandle, fun calls => ?_, rfl, rfl, rfl⟩
    obtain ⟨_, _, hrecorded⟩ := handle_of_malformed (Recorded.mk backend calls) hopen hmalformed
    rw [hrecorded]
  · obtain ⟨hmalformed, -⟩ | ⟨received, whole, after, hmeans, hanswers, hhandle⟩ :=
      handle_cases connection backend hopen
    · exact absurd hmalformed hwell
    · exact ⟨received, whole, after, hmeans, receive_of_means hopen hmeans, hhandle, hanswers,
        Backend.requestCode_replyTo .., hanswers.attempts,
        (ServerMessage.payload?_eq_none_iff _).trans (Backend.not_fits_replyTo_iff ..)⟩
  · obtain ⟨whole, after, hsends, hhandle⟩ :=
      handle_of_hasMisfitPrefix backend hopen hbody hmisfit
    have hcalls (calls : List BackendCall) :
        (connection.handle (Recorded.mk backend calls)).2.2.calls = calls := by
      obtain ⟨_, _, -, hrecorded⟩ :=
        handle_of_hasMisfitPrefix (Recorded.mk backend calls) hopen hbody hmisfit
      rw [hrecorded]
    obtain ⟨payload, outcome, hpayload, hwrote, hstill⟩ := hsends.wrote_response hopen
    exact ⟨after, payload, outcome, hhandle, hcalls, hpayload, hwrote, hstill⟩

/-- A connection with the request to withdraw a prefix of one byte, and a stream that is interrupted
before it takes the reply. -/
def shortPrefix : Connection where
  id := 1
  input := ⟨#[0, 5, 0, 1, 7, 64], 6, Nat.le_refl 6⟩
  outlet := { upcoming := [.interrupted] }

theorem handle_follows_grammar_shortPrefix :
    shortPrefix.isOpen = true ∧ ∃ after payload outcome,
      shortPrefix.handle ({} : MemoryBackend) = (.empty, after, {}) ∧
        (ServerMessage.reply (.response 5 .invalid)).payload? = some payload ∧
        shortPrefix.outlet.Wrote (FrameStream.frame payload) outcome after.outlet ∧
        after.isOpen = true := by
  have hbody : (Request.removePrefix [7] 64).HasBody shortPrefix.message :=
    ⟨[0, 1, 7, 64], ⟨[0, 1, 7], [64], ⟨by decide, rfl⟩, ⟨[64], [], rfl, rfl, rfl⟩, rfl⟩, rfl⟩
  have hmisfit : (Request.removePrefix [7] 64).HasMisfitPrefix := by
    change [(7 : UInt8)].length ≠ MeshPrefix.size
    decide
  obtain ⟨after, payload, outcome, hhandle, -, hpayload, hwrote, -⟩ :=
    (handle_follows_grammar shortPrefix ({} : MemoryBackend) rfl).2.2 _ hbody hmisfit
  have hafter : (shortPrefix.handle ({} : MemoryBackend)).2.1.isOpen = true := by decide +kernel
  rw [hhandle] at hafter
  exact ⟨rfl, after, payload, outcome, hhandle, hpayload, hwrote, hafter⟩

end Connection

end

end MeshControl
