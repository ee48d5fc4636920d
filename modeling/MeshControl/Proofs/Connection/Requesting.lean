import MeshControl.Proofs.Connection.Accepting
import MeshControl.Proofs.Connection.Serving

/-!
A request on its way from the encoder to the backend. Every request that fits into a frame is
encoded, in any buffer, and the frame, in whatever pieces it is delivered, is received as that
request. So the backend is asked for the change that the request spells, once and with its values,
and a request that changes nothing is answered without a change (`encode_then_handle`).
-/

namespace MeshControl

/-- The changes that a request asks a backend for. A prefix that does not have eight bytes is not
passed on. -/
def Request.calls : Request → List BackendCall
  | addService enterprise serviceData serverData =>
    [.addService { enterprise, serviceData, serverData }]
  | removeService enterprise serviceData => [.removeService enterprise serviceData]
  | addPrefix terms =>
    (MeshPrefix.ofBytes? terms.meshPrefix).toList.map fun meshPrefix =>
      .addPrefix { meshPrefix, length := terms.length, slaac := terms.slaac,
                   onMesh := terms.onMesh, stable := terms.stable }
        terms.preferredLifetime terms.validLifetime
  | removePrefix bytes length =>
    (MeshPrefix.ofBytes? bytes).toList.map (.removePrefix · length)
  | getTunnelName => []
  | subscribe _ => []

section

variable {β : Type} [Backend β]

namespace Recorded

/-- A recorded backend carries out the same changes and records what it was asked for. -/
theorem change?_eq (recorded : Recorded β) (request : Request) :
    Backend.change? recorded request = (Backend.change? recorded.backend request).map fun change =>
      ⟨change.status, change.kind, ⟨change.backend, recorded.calls ++ request.calls⟩⟩ := by
  cases request with
  | addService | removeService | getTunnelName | subscribe => rfl
  | addPrefix terms =>
    simp only [Backend.change?, Request.calls]
    cases MeshPrefix.ofBytes? terms.meshPrefix with
    | none => simp
    | some meshPrefix => rfl
  | removePrefix bytes length =>
    simp only [Backend.change?, Request.calls]
    cases MeshPrefix.ofBytes? bytes with
    | none => simp
    | some meshPrefix => rfl

theorem calls_of_change?_eq_none {backend : β} {request : Request}
    (h : Backend.change? backend request = none) : request.calls = [] := by
  cases request with
  | addService | removeService => cases h
  | addPrefix terms =>
    cases hmesh : MeshPrefix.ofBytes? terms.meshPrefix <;> simp [Backend.change?, hmesh] at h
  | removePrefix bytes length =>
    cases hmesh : MeshPrefix.ofBytes? bytes <;> simp [Backend.change?, hmesh] at h
  | getTunnelName | subscribe => rfl

theorem after_eq (recorded : Recorded β) (request : Request) :
    Backend.after recorded (some request) =
      ⟨Backend.after recorded.backend (some request), recorded.calls ++ request.calls⟩ := by
  simp only [Backend.after, Option.bind_some, change?_eq]
  cases hchange : Backend.change? recorded.backend request with
  | none => simp [calls_of_change?_eq_none hchange]
  | some change => rfl

theorem currentEvent_eq (recorded : Recorded β) (kind : EventKind) :
    Backend.currentEvent recorded kind = Backend.currentEvent recorded.backend kind := by
  cases kind <;> rfl

/-- A recorded backend answers as the backend behind it. -/
theorem answers_eq (recorded : Recorded β) (code : UInt16) (received : Option Request) :
    Backend.answers recorded code received = Backend.answers recorded.backend code received := by
  have hreply : Backend.replyTo recorded code received =
      Backend.replyTo recorded.backend code received := by
    unfold Backend.replyTo
    split
    · rfl
    · rfl
    · rename_i request _
      rw [change?_eq]
      cases Backend.change? recorded.backend request <;> rfl
  simp only [Backend.answers, hreply, currentEvent_eq]

end Recorded

/-- A prefix that does not have eight bytes is answered as invalid, and the backend is not asked. -/
theorem Request.answers_of_hasMisfitPrefix {request : Request} (backend : β) (code : UInt16)
    (hmisfit : request.HasMisfitPrefix) : request.calls = [] ∧
      Backend.answers backend code (some request) = [.reply (.response code .invalid)] := by
  have hchange := Backend.change?_of_hasMisfitPrefix backend hmisfit
  constructor
  · cases request with
    | addPrefix terms => simp only [calls, MeshPrefix.ofBytes?, dif_neg hmisfit]; rfl
    | removePrefix bytes length => simp only [calls, MeshPrefix.ofBytes?, dif_neg hmisfit]; rfl
    | _ => cases hmisfit
  · rw [Backend.answers, Backend.replyTo_of_change? code hchange, Option.bind_some,
      Backend.subscription?_of_change? hchange]
    rfl

end

namespace Connection

section

variable {σ : Type} {onMessage : Connection → σ → Connection × σ} {start now : Connection}
  {state left : σ}

theorem Serves.reads_of_nil (h : Serves onMessage start state [] now left) :
    start.Reads now ∧ left = state := by
  generalize hbodies : ([] : List Bytes) = bodies at h
  induction h with
  | start => exact ⟨.refl _, rfl⟩
  | reads _ hreads ih => exact ⟨(ih hbodies).1.trans hreads, (ih hbodies).2⟩
  | handles => simp at hbodies

/-- A connection that has run its callback once has run it on the one message. -/
theorem Serves.single {body : Bytes} (h : Serves onMessage start state [body] now left) :
    ∃ ready, start.Reads ready ∧ ready.isOpen = true ∧ ready.message = body ∧
      (onMessage ready state).1.Reads now ∧ (onMessage ready state).2 = left := by
  generalize hbodies : [body] = bodies at h
  induction h with
  | start => cases hbodies
  | reads _ hreads ih =>
    obtain ⟨ready, hstart, hopen, hmessage, hnow, hleft⟩ := ih hbodies
    exact ⟨ready, hstart, hopen, hmessage, hnow.trans hreads, hleft⟩
  | @handles bodies now left hserves hopen =>
    obtain ⟨hnil, hmessage⟩ : bodies = [] ∧ now.message = body := by
      rcases bodies with _ | ⟨first, others⟩
      · exact ⟨rfl, (List.cons.inj hbodies).1.symm⟩
      · simp at hbodies
    subst hnil
    obtain ⟨hreads, rfl⟩ := hserves.reads_of_nil
    exact ⟨now, hreads, hopen, hmessage, .refl _, rfl⟩

end

/-- A frame of which all that arrives is read is one message. -/
theorem Served.bodies_of_frame {σ : Type} {onMessage : Connection → σ → Connection × σ}
    {start final : Connection} {state left : σ} {taken body : Bytes}
    (hserved : Served onMessage start state taken [] final left) (hopen : start.isOpen = true)
    (hlength : body.length < BigEndian.span 2)
    (hbytes : FrameStream.frame body = taken ++ final.inlet.pending) :
    (FrameStream.cut taken).bodies = [body] ∧ final.inlet.pending = [] := by
  have hserves := hserved.serves
  rcases FrameStream.cut_of_frame_eq_append hlength hbytes with ⟨-, hpending, hcut⟩ | ⟨hmore, hcut⟩
  · exact ⟨by rw [hcut], hpending⟩
  · -- Nothing was handled, so the connection is open and has read all that arrived.
    rw [hcut] at hserves
    have hstill := hserves.reads_of_nil.1.isOpen_eq.trans hopen
    exact absurd (by simp [Inlet.pending, hserved.unread_of_open hstill]) hmore

section

variable {β : Type} [Backend β]

/-- What becomes of a connection and a recorded backend when one request was handled. -/
theorem handling_of_request {ready : Connection} {request : Request} (changed : EventSet)
    (recorded : Recorded β) (hopen : ready.isOpen = true) (hbody : request.HasBody ready.message) :
    ∃ whole, (ready.handling (changed, recorded)).1.isOpen = whole ∧
      ready.outlet.Conveys ((Backend.answers recorded.backend request.type.code
        (some request)).map ServerMessage.payload?) whole
        (ready.handling (changed, recorded)).1.outlet ∧
      (ready.handling (changed, recorded)).1.subscriptions =
        ready.subscriptions.after (some request) ∧
      (ready.handling (changed, recorded)).2.2 =
        ⟨Backend.after recorded.backend (some request), recorded.calls ++ request.calls⟩ := by
  rcases ready.handle_cases recorded hopen with
    ⟨hmalformed, -⟩ | ⟨received, whole, after, hmeans, hanswers, hhandle⟩
  · exact absurd hmalformed (Body.not_malformed_of_hasBody hbody)
  · obtain rfl : received = some request := hmeans.unique hbody
    simp only [handling, hhandle]
    refine ⟨whole, hanswers.isOpen_eq, ?_, hanswers.subscriptions_eq, Recorded.after_eq ..⟩
    have hconveys := hanswers.conveys
    rwa [Body.code_of_hasBody hbody, Recorded.answers_eq] at hconveys

/-- Parsing undoes encoding for every request. A request is encoded in any buffer exactly if its
type code and its fields take up at most 65535 bytes. When the frame is delivered to a connection at
rest, in whatever pieces, the request is received; the backend is asked for its changes and for no
other; the subscription that it asks for, and no other, is added; and it is answered, with the name
of the tunnel if it asks for that, or as invalid if its prefix does not have eight bytes. -/
theorem encode_then_handle (request : Request) :
    (∀ buffer : Buffer, (∃ frame after, request.encode buffer = .ok frame after) ↔
      2 + Field.totalSize request.fields ≤ maxPayload) ∧
    ∀ (buffer after : Buffer) (frame : Bytes), request.encode buffer = .ok frame after →
      ∀ (start : Connection) (changed : EventSet) (backend : β) (calls : List BackendCall)
        (notices : List Notice), start.IsAtRest →
      (∀ notice ∈ notices, ∀ arrival ∈ notice.arrivals, arrival.isSteady = true) →
      Notice.bytes notices = frame → Notice.unread [] notices = [] →
      let (final, _, left) :=
        attend handling notices start (changed, (⟨backend, calls⟩ : Recorded β))
      ∃ ready whole, start.Reads ready ∧
        Exchange.receive ready = .ok (some request) (ready.parsed request) ∧
        left.calls = calls ++ request.calls ∧
        left.backend = Backend.after backend (some request) ∧
        final.subscriptions = start.subscriptions.after (some request) ∧
        start.outlet.Conveys ((Backend.answers backend request.type.code
          (some request)).map ServerMessage.payload?) whole final.outlet ∧
        final.isOpen = whole ∧ final.inlet.pending = [] ∧
        (request.HasMisfitPrefix → request.calls = [] ∧
          Backend.answers backend request.type.code (some request) =
            [.reply (.response request.type.code .invalid)]) := by
  refine ⟨fun buffer => ?_, ?_⟩
  · rw [← request.exists_payload?_iff]
    constructor
    · intro h
      obtain ⟨frame, after, hencode⟩ := h
      obtain ⟨payload, hpayload, -⟩ := Request.payload?_of_encode_eq_ok hencode
      exact ⟨payload, hpayload⟩
    · intro h
      obtain ⟨payload, hpayload⟩ := h
      exact ⟨_, Request.exists_encode_eq_ok buffer hpayload⟩
  · intro buffer after frame hencode start changed backend calls notices hrest hsteady hframe hread
    obtain ⟨payload, hpayload, rfl⟩ := Request.payload?_of_encode_eq_ok hencode
    have hlength := Frame.length_payload_lt hpayload
    obtain ⟨taken, hbytes, hserved⟩ :=
      serves_attend handling (changed, (⟨backend, calls⟩ : Recorded β)) hrest hsteady
    rw [hread] at hserved
    rw [hframe] at hbytes
    obtain ⟨hbodies, hpending⟩ := hserved.bodies_of_frame hrest.isOpen hlength hbytes
    have hserves := hserved.serves
    rw [hbodies] at hserves
    obtain ⟨ready, hstart, hopen, hmessage, hfinal, hleft⟩ := hserves.single
    have hbody : request.HasBody ready.message := hmessage ▸ Request.hasBody_of_payload? hpayload
    obtain ⟨whole, hstill, hconveys, hsubscriptions, hbackend⟩ :=
      handling_of_request changed ⟨backend, calls⟩ hopen hbody
    rw [hleft] at hbackend
    rw [← hfinal.isOpen_eq] at hstill
    rw [← hfinal.outlet_eq, hstart.outlet_eq] at hconveys
    rw [← hfinal.subscriptions_eq, hstart.subscriptions_eq] at hsubscriptions
    refine ⟨ready, whole, hstart, Exchange.receive_of_hasBody hopen hbody, ?_, ?_, hsubscriptions,
      hconveys, hstill, hpending, Request.answers_of_hasMisfitPrefix backend _⟩
    · rw [hbackend]
    · rw [hbackend]

end

/-- A connection that nothing has arrived on. -/
def untouched : Connection where
  id := 1
  input := .empty

/-- The request to publish a prefix for half an hour. -/
def publication : Request :=
  .addPrefix
    { preferredLifetime := 1800, validLifetime := 3600, meshPrefix := [253, 0, 0, 0, 0, 0, 0, 1]
      length := 64, slaac := true, onMesh := false, stable := true }

/-- The frame of the request, in two pieces. -/
def publicationPieces : List Notice :=
  [⟨[.data [0]], 1⟩,
    ⟨[.interrupted, .data [24, 0, 4, 0, 0, 7, 8, 0, 0, 14, 16, 0, 8, 253, 0, 0, 0, 0, 0, 0, 1, 64,
      1, 0, 1]], 2⟩]

theorem encode_then_handle_publication :
    (∃ after, publication.encode .empty = .ok (Notice.bytes publicationPieces) after) ∧
    untouched.IsAtRest ∧
    (∀ notice ∈ publicationPieces, ∀ arrival ∈ notice.arrivals, arrival.isSteady = true) ∧
    Notice.unread [] publicationPieces = [] ∧
    let (final, _, left) := attend handling publicationPieces untouched
      (.empty, (⟨{}, []⟩ : Recorded MemoryBackend))
    left.calls = [.addPrefix ⟨⟨[253, 0, 0, 0, 0, 0, 0, 1], rfl⟩, 64, true, false, true⟩ 1800 3600] ∧
      final.inlet.pending = [] := by
  have hpayload : publication.payload? = some ((Notice.bytes publicationPieces).drop 2) := by
    decide +kernel
  obtain ⟨after, hencode⟩ := Request.exists_encode_eq_ok .empty hpayload
  rw [show FrameStream.frame ((Notice.bytes publicationPieces).drop 2) =
    Notice.bytes publicationPieces by decide +kernel] at hencode
  have hrest : untouched.IsAtRest := ⟨rfl, rfl, rfl, rfl, rfl⟩
  have hsteady : ∀ notice ∈ publicationPieces, ∀ arrival ∈ notice.arrivals,
      arrival.isSteady = true := by decide
  have hread : Notice.unread [] publicationPieces = [] := rfl
  have hhandled := (encode_then_handle publication).2 .empty after _ hencode untouched .empty
    ({} : MemoryBackend) [] publicationPieces hrest hsteady rfl hread
  refine ⟨⟨after, hencode⟩, hrest, hsteady, hread, ?_⟩
  rcases hrun : attend handling publicationPieces untouched
    (.empty, (⟨{}, []⟩ : Recorded MemoryBackend)) with ⟨final, changed, left⟩
  rw [hrun] at hhandled
  obtain ⟨_, _, -, -, hcalls, -, -, -, -, hpending, -⟩ := hhandled
  exact ⟨hcalls, hpending⟩

end Connection

end MeshControl
