import MeshControl.Backend.Memory
import MeshControl.Proofs.Connection.Answering
import MeshControl.Proofs.Connection.Draining
import MeshControl.Proofs.Connection.Serving
import MeshControl.Proofs.Wire.Composing
import MeshControl.Server.Registry

/-!
What a peer receives is a sequence of frames. Whatever is done to a connection, in any order, each
write that it tries offers one whole frame, and it goes on writing only while every frame is taken
whole: after a write that is not, or a message that cannot be encoded, the connection is closed, and
nothing is offered to the stream of a closed connection. `Connection.Offers` says this of one
operation and `Offers.trans` of one behind another.
-/

namespace MeshControl

namespace Outlet

variable {before after : Outlet} {letters : List (Option Bytes)} {whole : Bool}

theorem Wrote.mem_log {bytes : Bytes} {outcome : WriteOutcome}
    (h : before.Wrote bytes outcome after) {write : Write} (hwrite : write ∈ after.log) :
    write ∈ before.log ∨ write.offered = bytes ∧
      (write.outcome = .interrupted ∨ write.outcome = outcome) := by
  obtain ⟨retries, hlog⟩ := h.log_eq
  rw [hlog, List.mem_cons, List.mem_append] at hwrite
  obtain rfl | htry | hold := hwrite
  · exact .inr ⟨rfl, .inr rfl⟩
  · rw [List.eq_of_mem_replicate htry]
    exact .inr ⟨rfl, .inl rfl⟩
  · exact .inl hold

/-- What is offered is a frame of one of the letters. -/
theorem Conveys.mem_log (h : before.Conveys letters whole after) {write : Write}
    (hwrite : write ∈ after.log) :
    write ∈ before.log ∨ ∃ body, some body ∈ letters ∧ write.offered = FrameStream.frame body := by
  induction h with
  | done | unwritable => exact .inl hwrite
  | @broken before after body outcome later hwrote =>
    obtain hold | ⟨hoffered, -⟩ := hwrote.mem_log hwrite
    · exact .inl hold
    · exact .inr ⟨body, List.mem_cons_self .., hoffered⟩
  | @taken before middle after body later whole hwrote _ ih =>
    obtain hmiddle | ⟨other, hother, hoffered⟩ := ih hwrite
    · obtain hold | ⟨hoffered, -⟩ := hwrote.mem_log hmiddle
      · exact .inl hold
      · exact .inr ⟨body, List.mem_cons_self .., hoffered⟩
    · exact .inr ⟨other, List.mem_cons_of_mem _ hother, hoffered⟩

theorem Conveys.allWhole (h : before.Conveys letters true after) (hwhole : before.AllWhole) :
    after.AllWhole := by
  generalize htrue : true = ended at h
  induction h with
  | done => exact hwhole
  | unwritable | broken => cases htrue
  | taken hwrote _ ih =>
    refine ih (fun write hwrite => ?_) htrue
    obtain hold | ⟨hoffered, hinterrupted | houtcome⟩ := hwrote.mem_log hwrite
    · exact hwhole write hold
    · exact .inl hinterrupted
    · refine .inr (decide_eq_true ?_)
      rw [houtcome, hoffered]

/-- A write that is not taken whole leaves less than a frame. -/
theorem Wrote.bytes_of_broken {body : Bytes} {outcome : WriteOutcome}
    (h : before.Wrote (FrameStream.frame body) outcome after)
    (hpart : outcome ≠ .took (FrameStream.frame body).length) :
    ∃ part missing, after.bytes = before.bytes ++ part ∧ missing ≠ [] ∧
      FrameStream.frame body = part ++ missing := by
  cases outcome with
  | interrupted => exact absurd rfl h.settled
  | failed fault =>
    refine ⟨[], FrameStream.frame body, ?_, ?_, rfl⟩
    · simp [Outlet.bytes, taken_of_wrote h, Write.taken?]
    · simp [FrameStream.frame, BigEndian.digits]
  | took count =>
    refine ⟨(FrameStream.frame body).take count, (FrameStream.frame body).drop count, ?_, ?_,
      (List.take_append_drop ..).symm⟩
    · simp [Outlet.bytes, taken_of_wrote h, Write.taken?]
    · have hle := h.within count rfl
      have hne : count ≠ (FrameStream.frame body).length := fun hcount => hpart (hcount ▸ rfl)
      rw [ne_eq, List.drop_eq_nil_iff]
      omega

/-- The bytes that a stream takes are whole frames, and behind them the beginning of one at most. -/
theorem Conveys.bytes_eq (h : before.Conveys letters whole after) :
    ∃ bodies part, (∀ body ∈ bodies, some body ∈ letters) ∧
      after.bytes = before.bytes ++ FrameStream.joined bodies ++ part ∧
      (part = [] ∨ whole = false ∧ ∃ body missing, some body ∈ letters ∧ missing ≠ [] ∧
        FrameStream.frame body = part ++ missing) := by
  induction h with
  | done | unwritable =>
    exact ⟨[], [], by simp, by simp [FrameStream.joined], .inl rfl⟩
  | @broken before after body outcome later hwrote hpart =>
    obtain ⟨part, missing, hbytes, hmissing, hframe⟩ := hwrote.bytes_of_broken hpart
    exact ⟨[], part, by simp, by simp [FrameStream.joined, hbytes],
      .inr ⟨rfl, body, missing, List.mem_cons_self .., hmissing, hframe⟩⟩
  | @taken before middle after body later whole hwrote _ ih =>
    obtain ⟨bodies, part, hbodies, hbytes, hpart⟩ := ih
    refine ⟨body :: bodies, part, ?_, ?_, ?_⟩
    · intro other hother
      obtain rfl | hlater := List.mem_cons.mp hother
      · exact List.mem_cons_self ..
      · exact List.mem_cons_of_mem _ (hbodies other hlater)
    · rw [hbytes, bytes_of_wrote_whole hwrote, FrameStream.joined]
      simp only [List.append_assoc]
    · obtain hnone | ⟨hwhole, last, missing, hlast, hmissing⟩ := hpart
      · exact .inl hnone
      · exact .inr ⟨hwhole, last, missing, List.mem_cons_of_mem _ hlast, hmissing⟩

end Outlet

namespace Exchange

/-- Writes a frame in one piece. Unless all of it is taken, the connection is closed. -/
def writeFrame (frame : Bytes) : Exchange Unit := fun connection =>
  let (taken, outlet) := connection.outlet.write frame
  let connection := { connection with outlet }
  match taken with
  | .error fault => .error (.stream fault) connection.close
  | .ok count =>
    if count = frame.length then .ok () connection
    else .error (.shortWrite count frame.length) connection.close

/-- Composes a message of a type and writes it. -/
def compose (type : MessageType) (space : Nat) (composition : Composition) : Exchange Unit :=
  fun connection =>
    if connection.isOpen then
      match Frame.compose type space composition connection.output with
      | .error e output => .error (.wire e) { connection with output }.close
      | .ok frame output => writeFrame frame { connection with output }
    else .error .closed connection

/-- Sending fields is sending what is composed of them. -/
theorem send_eq_compose (type : MessageType) (space : Nat) (fields : List Field) :
    send type space fields = compose type space (.ofFields fields) := by
  funext connection
  simp only [send, compose, Frame.build_eq_compose]
  rfl

/-- The connection that a step leaves, whether it succeeds or not. -/
def leaves {α : Type} (step : Exchange α) (connection : Connection) : Connection :=
  match step connection with
  | .ok _ after => after
  | .error _ after => after

end Exchange

/-- What may be done to a connection, with any backend behind the server. -/
inductive Operation (β : Type) where
  /-- Something arrives, and every message that it completes is handled. -/
  | serve (arrivals : List Arrival) (now : Nat) (backend : β)
  /-- The message at hand is handled. -/
  | handle (backend : β)
  | compose (type : MessageType) (space : Nat) (composition : Composition)
  | respond (status : Status)
  | respondTunnelName (status : Status) (name : Option String)
  | sendEvent (event : Event)
  /-- An event is published to all subscribers. -/
  | push (event : Event)
  | subscribe (kind : EventKind)
  /-- The type code that replies repeat is set. -/
  | note (code : UInt16)
  | close

namespace Connection

/-- The connection goes on writing, and goes on being open, only while its stream takes everything
whole. The frames that it offers are those of letters that are short enough. -/
structure Offers (before after : Connection) : Prop where
  conveys : ∃ letters whole, before.outlet.Conveys letters whole after.outlet ∧
    (after.isOpen = true → whole = true) ∧ ∀ body, some body ∈ letters → body.length ≤ maxPayload
  isOpen : after.isOpen = true → before.isOpen = true
  silent : before.isOpen = false → after.outlet = before.outlet

variable {before middle after : Connection}

theorem Offers.of_outlet_eq (houtlet : after.outlet = before.outlet)
    (hopen : after.isOpen = true → before.isOpen = true) : before.Offers after where
  conveys := ⟨[], true, houtlet ▸ .done _, fun _ => rfl, by simp⟩
  isOpen := hopen
  silent _ := houtlet

theorem Offers.trans (hfirst : before.Offers middle) (hsecond : middle.Offers after) :
    before.Offers after := by
  refine ⟨?_, fun h => hfirst.isOpen (hsecond.isOpen h), fun hclosed => ?_⟩
  · cases hmiddle : middle.isOpen with
    | true =>
      obtain ⟨letters, whole, hletters, hwhole, hshort⟩ := hfirst.conveys
      obtain ⟨more, still, hmore, hstill, hlittle⟩ := hsecond.conveys
      rw [hwhole hmiddle] at hletters
      refine ⟨letters ++ more, still, hletters.append hmore, hstill, fun body hbody => ?_⟩
      obtain hearlier | hlater := List.mem_append.mp hbody
      · exact hshort body hearlier
      · exact hlittle body hlater
    | false =>
      obtain ⟨letters, whole, hletters, -, hshort⟩ := hfirst.conveys
      rw [hsecond.silent hmiddle]
      refine ⟨letters, whole, hletters, fun hopen => ?_, hshort⟩
      rw [hsecond.isOpen hopen] at hmiddle
      cases hmiddle
  · have hstill : middle.isOpen = false := by
      apply Bool.eq_false_iff.mpr
      intro hopen
      rw [hfirst.isOpen hopen] at hclosed
      cases hclosed
    rw [hsecond.silent hstill, hfirst.silent hclosed]

theorem offers_writeFrame {connection : Connection} {body : Bytes}
    (hopen : connection.isOpen = true) (hlength : body.length ≤ maxPayload) :
    connection.Offers ((Exchange.writeFrame (FrameStream.frame body)).leaves connection) := by
  have hshort : ∀ other, some other ∈ [some body] → other.length ≤ maxPayload := by
    intro other hother
    rw [List.mem_singleton, Option.some.injEq] at hother
    exact hother ▸ hlength
  unfold Exchange.leaves Exchange.writeFrame
  cases hwrite : connection.outlet.write (FrameStream.frame body) with
  | mk taken outlet =>
    have hwrote := Outlet.wrote_of_write hwrite
    cases taken with
    | error fault =>
      exact ⟨⟨_, false, .broken [] hwrote (by simp [Outlet.outcome]), fun h => h, hshort⟩,
        fun _ => hopen, by simp [hopen]⟩
    | ok count =>
      by_cases hcount : count = (FrameStream.frame body).length
      · subst hcount
        simp only [if_true]
        exact ⟨⟨_, true, .taken hwrote (.done _), fun _ => rfl, hshort⟩, fun _ => hopen,
          by simp [hopen]⟩
      · simp only [if_neg hcount]
        have hpart : WriteOutcome.took count ≠ .took (FrameStream.frame body).length := fun h =>
          hcount (WriteOutcome.took.inj h)
        exact ⟨⟨_, false, .broken [] hwrote hpart, fun h => h, hshort⟩, fun _ => hopen,
          by simp [hopen]⟩

/-- A message that is composed is offered in one frame, or not at all if it cannot be encoded. -/
theorem offers_compose (type : MessageType) (space : Nat) (composition : Composition)
    (connection : Connection) :
    connection.Offers ((Exchange.compose type space composition).leaves connection) := by
  cases hopen : connection.isOpen with
  | false =>
    rw [Exchange.leaves, Exchange.compose, if_neg (by simp [hopen])]
    exact .of_outlet_eq rfl fun h => h
  | true =>
    cases hbuild : Frame.compose type space composition connection.output with
    | error e output =>
      simp only [Exchange.leaves, Exchange.compose, if_pos hopen, hbuild]
      exact .of_outlet_eq rfl nofun
    | ok frame output =>
      obtain ⟨body, hbody, rfl⟩ := Frame.exists_body_of_compose_eq_ok hbuild
      have hcompose : (Exchange.compose type space composition).leaves connection =
          (Exchange.writeFrame (FrameStream.frame body)).leaves { connection with output } := by
        simp only [Exchange.leaves, Exchange.compose, if_pos hopen, hbuild]
      have hbuilt : connection.Offers { connection with output } := .of_outlet_eq rfl fun h => h
      rw [hcompose]
      exact hbuilt.trans (offers_writeFrame hopen hbody)

theorem offers_sendMessage (message : ServerMessage) (connection : Connection) :
    connection.Offers ((Exchange.sendMessage message).leaves connection) := by
  rw [Exchange.sendMessage, Exchange.send_eq_compose]
  exact offers_compose ..

section

variable {β : Type} [Backend β]

theorem Answers.offers {received : Option Request} {backend : β} {whole : Bool}
    (h : before.Answers backend received whole after) (hopen : before.isOpen = true) :
    before.Offers after := by
  refine ⟨⟨_, whole, h.conveys, fun hstill => ?_, fun body hbody => ?_⟩, fun _ => hopen,
    by simp [hopen]⟩
  · rwa [h.isOpen_eq] at hstill
  · obtain ⟨message, -, hpayload⟩ := List.mem_map.mp hbody
    exact Frame.length_payload_le hpayload

theorem handle_of_closed {connection : Connection} (backend : β)
    (hclosed : connection.isOpen = false) :
    connection.handle backend = (.empty, { connection with position := 0 }, backend) := by
  have hreceive : Exchange.receive connection =
      .error .closed { connection with position := 0 } := by
    change EStateM.bind (Exchange.read Decoder.u16) _ { connection with position := 0 } = _
    simp [EStateM.bind, Exchange.read, hclosed]
  have hserve : Exchange.serve backend connection = _ := bind_of_eq_error hreceive
  rw [handle, hserve]

theorem offers_handle (connection : Connection) (backend : β) :
    connection.Offers (connection.handle backend).2.1 := by
  cases hopen : connection.isOpen with
  | false =>
    rw [handle_of_closed backend hopen]
    exact .of_outlet_eq rfl fun h => h
  | true =>
    rcases connection.handle_cases backend hopen with
      ⟨-, position, code, hhandle⟩ | ⟨received, whole, after, -, hanswers, hhandle⟩
    · rw [hhandle]
      exact .of_outlet_eq rfl nofun
    · rw [hhandle]
      exact hanswers.offers hopen

theorem offers_fill {connection next : Connection} {now : Nat} {outcome : Fill}
    (hfill : connection.fill now = (outcome, next)) : connection.Offers next := by
  refine .of_outlet_eq ?_ (sameStanding_fill hfill).1.isOpen
  obtain ⟨_, _, _, _, rfl⟩ := fill_frame hfill
  rfl

theorem offers_handleAll (connection : Connection) (now : Nat) (backend : β) :
    connection.Offers (connection.handleAll now backend).2.1 := by
  refine drain_keeps (motive := fun current _ => connection.Offers current) ?_ ?_ ?_
    connection (EventSet.empty, backend) (.of_outlet_eq rfl fun h => h)
  · intro current state outcome next h hfill
    exact h.trans (offers_fill hfill)
  · intro current state h
    exact h.trans (.of_outlet_eq rfl fun h => h)
  · intro current state inlet _ h
    have hready : current.Offers { current with position := 0 } := .of_outlet_eq rfl fun h => h
    have hhandled := hready.trans (offers_handle { current with position := 0 } state.2)
    exact (h.trans hhandled).trans (.of_outlet_eq rfl fun h => h)

/-- The connection after an operation. -/
def perform (connection : Connection) : Operation β → Connection
  | .serve arrivals now backend => ((connection.arrive arrivals).handleAll now backend).2.1
  | .handle backend => (connection.handle backend).2.1
  | .compose type space composition =>
    (Exchange.compose type space composition).leaves connection
  | .respond status => (Exchange.respond status).leaves connection
  | .respondTunnelName status name => (Exchange.respondTunnelName status name).leaves connection
  | .sendEvent event => (Exchange.sendEvent event).leaves connection
  | .push event => (connection.push event).2
  | .subscribe kind => connection.subscribe kind
  | .note code => { connection with messageCode := code }
  | .close => connection.close

theorem offers_push (connection : Connection) (event : Event) :
    connection.Offers (connection.push event).2 := by
  have hsent : connection.Offers ((Exchange.sendEvent event).leaves connection) :=
    offers_sendMessage (.event event) connection
  rw [Exchange.leaves] at hsent
  unfold push
  split
  · cases hsend : Exchange.sendEvent event connection <;> rwa [hsend] at hsent
  · exact .of_outlet_eq rfl fun h => h

theorem offers_perform (connection : Connection) (operation : Operation β) :
    connection.Offers (connection.perform operation) := by
  cases operation with
  | serve arrivals now backend =>
    have harrived : connection.Offers (connection.arrive arrivals) := .of_outlet_eq rfl fun h => h
    exact harrived.trans (offers_handleAll _ now backend)
  | handle backend => exact offers_handle connection backend
  | compose type space composition => exact offers_compose type space composition connection
  | respond status =>
    rw [perform, Exchange.leaves, Exchange.respond_eq]
    exact offers_sendMessage (.reply (.response connection.messageCode status)) connection
  | respondTunnelName status name =>
    rw [perform, Exchange.leaves, Exchange.respondTunnelName_eq]
    exact offers_sendMessage (.reply (.tunnelName connection.messageCode status name)) connection
  | sendEvent event => exact offers_sendMessage (.event event) _
  | push event => exact offers_push connection event
  | subscribe | note => exact .of_outlet_eq rfl fun h => h
  | close => exact .of_outlet_eq rfl nofun

theorem offers_foldl (operations : List (Operation β)) (connection : Connection) :
    connection.Offers (operations.foldl perform connection) := by
  induction operations generalizing connection with
  | nil => exact .of_outlet_eq rfl fun h => h
  | cons operation operations ih => exact (offers_perform connection operation).trans (ih _)

/-- What a peer receives is always a sequence of frames. After any operations on a connection that
has written nothing yet, whatever its stream makes of the writes:
every write offers a body behind the two bytes of its length;
the bytes that the stream has taken are whole frames and at most the beginning of one more;
the writes are those of letters, each tried again while it is interrupted, up to the first that is
not taken whole or cannot be encoded, and the connection is open only if there is no such letter;
a closed connection never writes again, and stays closed;
a message that cannot be encoded is not offered at all, and closes the connection;
and replies and events are composed like any other message. -/
theorem writes_are_frames (start : Connection) (hnew : start.outlet.log = [])
    (operations : List (Operation β)) :
    let now := operations.foldl perform start
    (∀ write ∈ now.outlet.log, ∃ body : Bytes, body.length ≤ maxPayload ∧
      write.offered = BigEndian.digits 2 body.length ++ body) ∧
    (∃ bodies part, (∀ body ∈ bodies, body.length ≤ maxPayload) ∧
      now.outlet.bytes = FrameStream.joined bodies ++ part ∧
      (part = [] ∨ now.isOpen = false ∧ ∃ body missing, body.length ≤ maxPayload ∧
        missing ≠ [] ∧ FrameStream.frame body = part ++ missing)) ∧
    (∃ letters whole, start.outlet.Conveys letters whole now.outlet ∧
      (now.isOpen = true → whole = true ∧
        ∀ write ∈ now.outlet.log, write.outcome = .interrupted ∨ write.isWhole = true)) ∧
    (now.isOpen = false → ∀ more : List (Operation β),
      (more.foldl perform now).outlet = now.outlet ∧ (more.foldl perform now).isOpen = false) ∧
    (∀ type space composition e output,
      Frame.compose type space composition now.output = .error e output →
      (now.perform (.compose type space composition : Operation β)).outlet = now.outlet ∧
        (now.perform (.compose type space composition : Operation β)).isOpen = false) ∧
    (∀ message : ServerMessage, Exchange.sendMessage message =
      Exchange.compose message.type message.size (.ofFields message.fields)) := by
  intro now
  obtain ⟨⟨letters, whole, hconveys, hwhole, hshort⟩, hopen, -⟩ := offers_foldl operations start
  refine ⟨fun write hwrite => ?_, ?_, ⟨letters, whole, hconveys, fun hstill => ?_⟩,
    fun hclosed more => ?_, fun type space composition e output hfails => ?_,
    fun message => Exchange.send_eq_compose ..⟩
  · obtain hold | ⟨body, hbody, hoffered⟩ := hconveys.mem_log hwrite
    · rw [hnew] at hold
      cases hold
    · exact ⟨body, hshort body hbody, hoffered⟩
  · obtain ⟨bodies, part, hbodies, hbytes, hpart⟩ := hconveys.bytes_eq
    have hnone : start.outlet.bytes = [] := by simp [Outlet.bytes, Outlet.taken, hnew]
    rw [hnone, List.nil_append] at hbytes
    refine ⟨bodies, part, fun body hbody => hshort body (hbodies body hbody), hbytes, ?_⟩
    obtain hpart | ⟨hbroken, body, missing, hbody, hmissing, hframe⟩ := hpart
    · exact .inl hpart
    · refine .inr ⟨?_, body, missing, hshort body hbody, hmissing, hframe⟩
      rw [← Bool.not_eq_true]
      intro hstill
      rw [hwhole hstill] at hbroken
      cases hbroken
  · obtain rfl := hwhole hstill
    exact ⟨rfl, hconveys.allWhole (by simp [Outlet.AllWhole, hnew])⟩
  · obtain ⟨-, hstays, hsilent⟩ := offers_foldl more now
    refine ⟨hsilent hclosed, Bool.eq_false_iff.mpr fun hreopened => ?_⟩
    rw [hstays hreopened] at hclosed
    cases hclosed
  · simp only [perform, Exchange.leaves, Exchange.compose, hfails]
    cases hstill : now.isOpen with
    | true => exact ⟨rfl, rfl⟩
    | false => exact ⟨rfl, hstill⟩

/-- A connection whose stream is interrupted once and then takes less and less. -/
def failing : Connection where
  id := 1
  input := .empty
  outlet := { upcoming := [.interrupted, .whole, .atMost 5] }

/-- A reply, an event that puts a blob and then a number, or nothing more if the blob is too long,
and a reply and an event that come too late. -/
def composed : List (Operation MemoryBackend) :=
  [.respond .noError, .compose .event 2 (.put (.blob []) fun
      | .ok _ => .put (.u16 7) .stop
      | .error _ => .stop (.ok ())),
    .respond .invalid, .push (.partition 5)]

theorem writes_are_frames_composed : failing.outlet.log = [] ∧
    let now := composed.foldl perform failing
    now.isOpen = false ∧
      now.outlet.bytes = FrameStream.joined [[0, 1, 0, 0, 0, 0, 0, 0]] ++ [0, 6, 0, 8, 0] ∧
      (∀ write ∈ now.outlet.log, ∃ body : Bytes, body.length ≤ maxPayload ∧
        write.offered = BigEndian.digits 2 body.length ++ body) ∧
      ∀ more : List (Operation MemoryBackend), (more.foldl perform now).outlet = now.outlet := by
  have hclosed : (composed.foldl perform failing).isOpen = false := by decide +kernel
  obtain ⟨hframes, -, -, hsilent, -, -⟩ := writes_are_frames failing rfl composed
  refine ⟨rfl, hclosed, by decide +kernel, hframes, fun more => (hsilent hclosed more).1⟩

end

end Connection

end MeshControl
