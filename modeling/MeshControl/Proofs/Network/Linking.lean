import MeshControl.Proofs.Connection.Requesting
import MeshControl.Proofs.Network.Basic

/-!
A client and its connection, with the bytes that are under way between them. `Linked` says how these
go with the stage of the client's call: towards the server there is the frame of the request until
it is carried out, and nothing else; towards the client there are events, and among them one reply
if the request was carried out. Each thing that a network can do to the two keeps them linked, and
only handling the request moves the call on to its answer (`Linked.handleAll`).
-/

namespace MeshControl

/-- Where no read finds nothing, all that arrives is read at once. -/
theorem Arrival.pastBlock_eq_nil {arrivals : List Arrival} (h : .wouldBlock ∉ arrivals) :
    pastBlock arrivals = [] := by
  induction arrivals with
  | nil => rfl
  | cons arrival arrivals ih =>
    rw [List.mem_cons, not_or] at h
    cases arrival with
    | wouldBlock => exact absurd rfl h.1
    | data | interrupted | failed => exact ih h.2

/-- Handling all that arrives leaves a connection with its client. -/
theorem Connection.id_handleAll {β : Type} [Backend β] (connection : Connection) (now : Nat)
    (backend : β) : (connection.handleAll now backend).2.1.id = connection.id := by
  refine drain_keeps (motive := fun current _ => current.id = connection.id) ?_ ?_ ?_
    connection (EventSet.empty, backend) rfl
  · intro current state outcome next hid hfill
    exact (sameStanding_fill hfill).1.id_eq.trans hid
  · intro current state hid
    exact hid
  · intro current state inlet hopen hid
    obtain ⟨more, after, left, hhandle, hhandles⟩ :=
      handles_handle { current with position := 0 } state.2 hopen
    simp only [hhandle]
    exact hhandles.frame.1.trans hid

namespace Stage

/-- The bytes that are to come to the server. -/
def Asks : Stage → Bytes → Prop
  | asked request, bytes => ∃ payload, request.payload? = some payload ∧
    bytes = FrameStream.frame payload
  | idle, bytes | answered _ _, bytes => bytes = []

/-- The messages that are to come to the client. -/
def Brings : Stage → List ServerMessage → Prop
  | answered request result, messages => ∃ (backend : MemoryBackend) (before later : List Event),
    result = (backend.apply request).1 ∧ messages = before.map .event ++
      .reply (Backend.replyTo backend request.type.code (some request)) :: later.map .event
  | idle, messages | asked _, messages => ∃ events : List Event, messages = events.map .event

variable {stage : Stage}

theorem Brings.append {messages : List ServerMessage} (h : stage.Brings messages)
    (events : List Event) : stage.Brings (messages ++ events.map .event) := by
  cases stage with
  | idle | asked =>
    obtain ⟨earlier, rfl⟩ := h
    exact ⟨earlier ++ events, List.map_append.symm⟩
  | answered =>
    obtain ⟨backend, before, later, hresult, rfl⟩ := h
    refine ⟨backend, before, later ++ events, hresult, ?_⟩
    rw [List.map_append, List.append_assoc, List.cons_append]

/-- The part of the bytes that has come holds no whole frame, or it is the request. -/
theorem Asks.cut {taken left : Bytes} (h : stage.Asks (taken ++ left)) :
    FrameStream.cut taken = ⟨[], taken⟩ ∨
      ∃ request payload, stage = .asked request ∧ request.payload? = some payload ∧
        FrameStream.cut taken = ⟨[payload], []⟩ ∧ left = [] := by
  cases stage with
  | idle | answered =>
    obtain ⟨rfl, -⟩ := List.append_eq_nil_iff.mp h
    exact .inl (FrameStream.cut_of_none rfl)
  | asked request =>
    obtain ⟨payload, hpayload, hframe⟩ := h
    rcases FrameStream.cut_of_frame_eq_append (Frame.length_payload_lt hpayload) hframe.symm with
      ⟨-, hleft, hcut⟩ | ⟨-, hcut⟩
    · exact .inr ⟨request, payload, rfl, hpayload, hcut, hleft⟩
    · exact .inl hcut

end Stage

/-- How a client and its connection stand to each other. -/
structure Linked (seat : Seat) (connection : Connection) (stage : Stage) : Prop where
  awaiting_eq : seat.awaiting = stage.request?
  heard : seat.client.channel.isHeard = true
  goesOn : seat.client.channel.ended = false
  isOpen : connection.isOpen = true
  steady : connection.inlet.IsSteady
  unblocked : .wouldBlock ∉ connection.inlet.arrivals
  lacks : connection.input.cursor < connection.phase.expected
  lossless : connection.outlet.IsLossless
  asks : stage.Asks (connection.collected ++ connection.inlet.pending ++ seat.client.channel.sent)
  brought_le : seat.brought ≤ connection.outlet.bytes.length
  brings : ∃ messages, stage.Brings messages ∧ ServerMessage.Fill messages
    (seat.client.channel.incoming ++ connection.outlet.bytes.drop seat.brought)

namespace Linked

variable {seat : Seat} {connection : Connection} {stage : Stage}

theorem start (id : Nat) {connection : Connection} (hopen : connection.isOpen = true)
    (hinlet : connection.inlet = {}) (hphase : connection.phase = .header)
    (hfilled : connection.input.filled = [])
    (haccepting : connection.outlet.IsAccepting) (hlog : connection.outlet.log = []) :
    Linked { id } connection .idle := by
  have hcursor : connection.input.cursor = 0 := by
    rw [← Buffer.length_filled, hfilled, List.length_nil]
  have hwhole : connection.outlet.AllWhole := by simp [Outlet.AllWhole, hlog]
  refine ⟨rfl, rfl, rfl, hopen, ?_, ?_, ?_, ⟨haccepting, hwhole⟩, ?_, Nat.zero_le _, [], ⟨[], rfl⟩,
    [], rfl, ?_⟩
  · simp [hinlet, Inlet.IsSteady]
  · simp [hinlet]
  · simp [hcursor, hphase, Phase.expected]
  · simp [Stage.Asks, Connection.collected, hphase, hfilled, Phase.announced, hinlet, Inlet.pending]
  · simp [Outlet.bytes, Outlet.taken, hlog, FrameStream.joined]

/-- A request that is sent is under way to the server. -/
theorem ask {request : Request} {payload : Bytes} {writeBuffer : Buffer}
    (h : Linked seat connection .idle) (hpayload : request.payload? = some payload) :
    Linked
      { seat with
        client := { seat.client with
          channel := { seat.client.channel with
            sent := seat.client.channel.sent ++ FrameStream.frame payload }
          writeBuffer }
        awaiting := some request }
      connection (.asked request) :=
  { h with
    awaiting_eq := rfl
    asks := by
      refine ⟨payload, hpayload, ?_⟩
      rw [← List.append_assoc, show _ = [] from h.asks, List.nil_append]
    brings := h.brings }

/-- Bytes that come to the server are under way no less. -/
theorem carry (h : Linked seat connection stage) {bytes left : Bytes} (hbytes : bytes ≠ [])
    (hsent : seat.client.channel.sent = bytes ++ left) :
    Linked
      { seat with
        client := { seat.client with channel := { seat.client.channel with sent := left } } }
      (connection.arrive [.data bytes]) stage :=
  { h with
    steady := by
      refine ⟨h.steady.1, fun arrival harrival => ?_⟩
      rcases List.mem_append.mp harrival with hold | hnew
      · exact h.steady.2 arrival hold
      · rw [List.mem_singleton.mp hnew]
        simpa [Arrival.isSteady] using hbytes
    unblocked := by simp [Connection.arrive, h.unblocked]
    asks := by
      have hasks := h.asks
      rw [hsent] at hasks
      have hpending : (connection.arrive [.data bytes]).inlet.pending =
          connection.inlet.pending ++ bytes := by
        simp [Connection.arrive, Inlet.pending]
      simp only [hpending, List.append_assoc] at hasks ⊢
      exact hasks }

theorem interrupt (h : Linked seat connection stage) :
    Linked seat (connection.arrive [.interrupted]) stage :=
  { h with
    steady := by
      refine ⟨h.steady.1, fun arrival harrival => ?_⟩
      rcases List.mem_append.mp harrival with hold | hnew
      · exact h.steady.2 arrival hold
      · rw [List.mem_singleton.mp hnew]
        rfl
    unblocked := by simp [Connection.arrive, h.unblocked]
    asks := by
      have hpending : (connection.arrive [.interrupted]).inlet.pending =
          connection.inlet.pending := by
        simp [Connection.arrive, Inlet.pending]
      rw [hpending]
      exact h.asks }

/-- A request that has arrived as a whole does not wait in the connection. -/
theorem not_asked {request : Request} (h : Linked seat connection (.asked request))
    (harrivals : connection.inlet.arrivals = []) (hsent : seat.client.channel.sent = []) :
    False := by
  obtain ⟨payload, hpayload, hframe⟩ := h.asks
  rw [hsent, show connection.inlet.pending = [] by simp [Inlet.pending, harrivals],
    List.append_nil, List.append_nil] at hframe
  have hfront := Connection.front?_collected h.lacks
  rw [hframe, FrameStream.front?_frame (Frame.length_payload_lt hpayload)] at hfront
  cases hfront

/-- What the connection writes is under way to the client. -/
theorem fill_append {outlet : Outlet} {messages more : List ServerMessage} {bytes : Bytes}
    (h : Linked seat connection stage) (hmore : ServerMessage.Fill more bytes)
    (hbytes : outlet.bytes = connection.outlet.bytes ++ bytes)
    (hmessages : ServerMessage.Fill messages
      (seat.client.channel.incoming ++ connection.outlet.bytes.drop seat.brought)) :
    ServerMessage.Fill (messages ++ more)
      (seat.client.channel.incoming ++ outlet.bytes.drop seat.brought) := by
  rw [hbytes, List.drop_append_of_le_length h.brought_le, ← List.append_assoc]
  exact hmessages.append hmore

theorem push {event : Event} (h : Linked seat connection stage)
    (hfits : connection.isSubscribed event.kind = true → (ServerMessage.event event).Fits) :
    Linked seat (connection.push event).2 stage := by
  obtain ⟨output, outlet, events, bytes, hpush, hlossless, hfill, hbytes⟩ :=
    Connection.push_of_lossless h.lossless hfits
  obtain ⟨messages, hbrings, hmessages⟩ := h.brings
  rw [hpush]
  exact
    { h with
      lossless := hlossless
      brought_le := by
        rw [hbytes, List.length_append]
        exact Nat.le_add_right_of_le h.brought_le
      brings := ⟨_, hbrings.append events, h.fill_append hfill hbytes hmessages⟩ }

/-- Bytes that come to the client are under way no less. -/
theorem bring (h : Linked seat connection stage) (count : Nat) :
    Linked
      { seat with
        client := { seat.client with
          channel := seat.client.channel.deliver
            ((connection.outlet.bytes.drop seat.brought).take count) }
        brought := seat.brought + ((connection.outlet.bytes.drop seat.brought).take count).length }
      connection stage := by
  have hchannel (bytes : Bytes) : seat.client.channel.deliver bytes =
      { seat.client.channel with incoming := seat.client.channel.incoming ++ bytes } := by
    simp [Channel.deliver, h.goesOn]
  have hlength := h.brought_le
  rw [hchannel]
  exact
    { h with
      brought_le := by
        simp only [List.length_take, List.length_drop]
        omega
      brings := by
        obtain ⟨messages, hbrings, hmessages⟩ := h.brings
        refine ⟨messages, hbrings, ?_⟩
        have hrest : (connection.outlet.bytes.drop seat.brought).take count ++
            connection.outlet.bytes.drop (seat.brought +
              ((connection.outlet.bytes.drop seat.brought).take count).length) =
            connection.outlet.bytes.drop seat.brought := by
          rw [← List.drop_drop]
          conv_rhs => rw [← List.take_append_drop count (connection.outlet.bytes.drop seat.brought)]
          congr 1
          simp
          omega
        rw [List.append_assoc, hrest]
        exact hmessages }

/-- A client that waits gets what its request gives, once the whole reply has come. Until then it
goes on waiting. -/
theorem settle {request : Request} (h : Linked seat connection stage)
    (hrequest : stage.request? = some request) :
    (Client.ending? (Client.settleCall request seat.client) = none ∧
      ((∃ request result, stage = .answered request result) →
        seat.brought < connection.outlet.bytes.length)) ∨
    ∃ result client, stage = .answered request result ∧
      Client.ending? (Client.settleCall request seat.client) = some (result, client) ∧
      Linked { seat with client, awaiting := none } connection .idle := by
  obtain ⟨messages, hbrings, payloads, hpayloads, hbytes⟩ := h.brings
  cases stage with
  | idle => cases hrequest
  | asked asking =>
    obtain ⟨events, rfl⟩ := hbrings
    obtain ⟨after, hread⟩ := Client.readReply_of_events hpayloads hbytes h.goesOn
    left
    rw [Client.settleCall_of_error hread]
    refine ⟨rfl, fun hanswered => ?_⟩
    obtain ⟨_, _, hanswered⟩ := hanswered
    cases hanswered
  | answered asking result =>
    obtain rfl : asking = request := Option.some.inj hrequest
    obtain ⟨backend, before, later, rfl, rfl⟩ := hbrings
    rcases Client.readReply_of_joined hpayloads hbytes h.goesOn with
      ⟨hmissing, after, hread⟩ | ⟨after, incoming, others, hread, hchannel, -, hothers, hleft⟩
    · left
      rw [Client.settleCall_of_error hread]
      refine ⟨rfl, fun _ => ?_⟩
      rw [ne_eq, List.drop_eq_nil_iff] at hmissing
      exact Nat.lt_of_not_le hmissing
    · right
      rw [Client.settleCall_of_reply hread]
      refine ⟨_, after, rfl, Client.ending?_give (backend.apply_ne_late asking), ?_⟩
      exact
        { h with
          awaiting_eq := rfl
          heard := by rw [hchannel]; exact h.heard
          goesOn := by rw [hchannel]; exact h.goesOn
          asks := by rw [hchannel]; exact h.asks
          brings := by
            rw [hchannel]
            exact ⟨_, ⟨later, rfl⟩, others, hothers, hleft⟩ }

/-- Reading on up to the end of what has arrived changes nothing else. -/
theorem reads {next : Connection} (h : Linked seat connection stage)
    (hreads : connection.Reads next) (hsteady : next.inlet.IsSteady)
    (harrivals : next.inlet.arrivals = []) (hlacks : next.input.cursor < next.phase.expected)
    (hasks : stage.Asks (next.collected ++ seat.client.channel.sent)) : Linked seat next stage where
  awaiting_eq := h.awaiting_eq
  heard := h.heard
  goesOn := h.goesOn
  isOpen := hreads.isOpen_eq.trans h.isOpen
  steady := hsteady
  unblocked := by simp [harrivals]
  lacks := hlacks
  lossless := hreads.outlet_eq ▸ h.lossless
  asks := by simpa [Inlet.pending, harrivals] using hasks
  brought_le := hreads.outlet_eq ▸ h.brought_le
  brings := hreads.outlet_eq ▸ h.brings

/-- A request that is answered is under way no more, and its reply is under way to the client. -/
theorem answer {request : Request} {backend : MemoryBackend} {whole : Bool}
    {ready replied next : Connection} (h : Linked seat connection (.asked request))
    (hready : connection.Reads ready) (hbody : request.HasBody ready.message)
    (hanswers : ready.Answers backend (some request) whole replied) (hnext : replied.Reads next)
    (hlossless : next.outlet.IsLossless)
    (hfits : ∀ message ∈ Backend.answers backend request.type.code (some request), message.Fits)
    (hsteady : next.inlet.IsSteady)
    (hrest : next.isOpen = true → next.inlet.arrivals = [])
    (hlacks : next.input.cursor < next.phase.expected)
    (hasked : next.collected ++ seat.client.channel.sent = []) :
    next.inlet.arrivals = [] ∧ Linked seat next (.answered request (backend.apply request).1) := by
  have hconveys := hanswers.conveys
  rw [Body.code_of_hasBody hbody, hready.outlet_eq, ← hnext.outlet_eq] at hconveys
  obtain ⟨rfl, bytes, hfill, hbytes⟩ := hconveys.of_lossless hlossless hfits
  have hopen : next.isOpen = true := hnext.isOpen_eq.trans hanswers.isOpen_eq
  have harrivals := hrest hopen
  obtain ⟨messages, ⟨events, rfl⟩, hmessages⟩ := h.brings
  refine ⟨harrivals, ?_⟩
  exact
    { awaiting_eq := h.awaiting_eq
      heard := h.heard
      goesOn := h.goesOn
      isOpen := hopen
      steady := hsteady
      unblocked := by simp [harrivals]
      lacks := hlacks
      lossless := hlossless
      asks := by simpa [Stage.Asks, Inlet.pending, harrivals] using hasked
      brought_le := by
        rw [hbytes, List.length_append]
        exact Nat.le_add_right_of_le h.brought_le
      brings := by
        refine ⟨_, ⟨backend, events, (request.subscription?.map fun kind =>
          Backend.currentEvent backend kind).toList, rfl, ?_⟩, h.fill_append hfill hbytes hmessages⟩
        cases request <;> rfl }

/-- Handling all that has arrived carries the request out if the whole of it has, and does nothing
otherwise. -/
theorem handleAll {backend left : MemoryBackend} {changed : EventSet} {after : Connection}
    {now : Nat} (h : Linked seat connection stage)
    (hname : ∀ name, backend.tunnelName = some name → name.utf8ByteSize ≤ 65525)
    (hhandle : connection.handleAll now backend = (changed, after, left))
    (hfits : ∀ kind, after.isSubscribed kind = true →
      (ServerMessage.event (Backend.currentEvent left kind)).Fits) :
    after.inlet.arrivals = [] ∧
      ((left = backend ∧ Linked seat after stage) ∨
        ∃ request, stage = .asked request ∧ left = (backend.apply request).2 ∧
          Linked seat after (.answered request (backend.apply request).1)) := by
  have hlossless := Connection.lossless_handleAll now backend h.lossless
  have hdrain := Connection.serves_drain Connection.handling (.empty, backend) now h.isOpen
    (Nat.le_of_lt h.lacks) h.steady
  rw [Connection.handleAll_eq] at hhandle hlossless
  rcases hrun : connection.drain Connection.handling now (.empty, backend) with
    ⟨final, changes, rest⟩
  rw [hrun] at hhandle hlossless hdrain
  simp only [Prod.mk.injEq] at hhandle
  obtain ⟨rfl, rfl, rfl⟩ := hhandle
  obtain ⟨bytes, hpending, hserved⟩ := hdrain
  have hasks := h.asks
  rw [hpending, ← List.append_assoc, List.append_assoc] at hasks
  have hunread := hserved.unread_of_open
  rw [Arrival.pastBlock_eq_nil h.unblocked] at hunread
  have hserves := hserved.serves
  have hcollected := hserved.collected_eq
  rcases hasks.cut with hcut | ⟨request, payload, rfl, hpayload, hcut, hnone⟩
  · rw [hcut] at hserves hcollected
    obtain ⟨hreads, hstate⟩ := hserves.reads_of_nil
    have harrivals := hunread (hreads.isOpen_eq.trans h.isOpen)
    refine ⟨harrivals, .inl ⟨congrArg Prod.snd hstate, ?_⟩⟩
    refine h.reads hreads hserved.steady harrivals hserved.lacks ?_
    rw [hcollected]
    simpa [Inlet.pending, harrivals] using hasks
  · rw [hcut] at hserves hcollected
    obtain ⟨ready, hready, hopen, hmessage, hfinal, hstate⟩ := hserves.single
    have hbody : request.HasBody ready.message := hmessage ▸ Request.hasBody_of_payload? hpayload
    rcases ready.handle_cases backend hopen with
      ⟨hmalformed, -⟩ | ⟨received, whole, replied, hmeans, hanswers, hhandle⟩
    · exact absurd hmalformed (Body.not_malformed_of_hasBody hbody)
    · obtain rfl : received = some request := hmeans.unique hbody
      simp only [Connection.handling, hhandle, Prod.mk.injEq] at hfinal hstate
      obtain ⟨-, hrest⟩ := hstate
      rw [MemoryBackend.after_eq_apply] at hrest
      have hfitting : ∀ message ∈ Backend.answers backend request.type.code (some request),
          message.Fits := by
        refine MemoryBackend.fits_answers hname _ fun kind hkind => ?_
        subst hkind
        have hevent := hfits kind (by
          rw [Connection.isSubscribed, hfinal.subscriptions_eq, hanswers.subscriptions_eq]
          exact (EventSet.contains_insert ..).trans (by simp))
        rwa [← hrest] at hevent
      obtain ⟨hsent, hleft⟩ := List.append_eq_nil_iff.mp hnone
      obtain ⟨harrivals, hlinked⟩ := h.answer hready hbody hanswers hfinal hlossless hfitting
        hserved.steady hunread hserved.lacks (by rw [hcollected, hleft]; rfl)
      exact ⟨harrivals, .inr ⟨request, rfl, hrest.symm, hlinked⟩⟩

end Linked

end MeshControl
