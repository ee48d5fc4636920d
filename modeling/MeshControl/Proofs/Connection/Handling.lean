import MeshControl.Connection.Dispatch
import MeshControl.Proofs.Connection.Sending
import MeshControl.Proofs.Message.Grammar

/-!
What handling a message comes to. Reading the message depends on its body alone and follows the
three sorts of bodies; what is then offered to the stream is one reply, and behind the reply to a
subscription that was taken whole one event. `Connection.Handles` has one constructor for each way
through, and `handles_handle` says that there are no others.
-/

namespace MeshControl

namespace Connection

/-- The connection after its message was read up to a position and found to have a type code. -/
def marked (connection : Connection) (position : Nat) (code : UInt16) : Connection :=
  { connection with position, messageCode := code }

end Connection

namespace Exchange

variable {α : Type} {decoder : Decoder α}

theorem read_of_eq_ok (connection : Connection) {value : α} {reader : Reader}
    (hopen : connection.isOpen = true)
    (h : decoder (Reader.resume connection.message connection.position) = .ok value reader) :
    read decoder connection = .ok value { connection with position := reader.position } := by
  simp only [read, if_pos hopen, h]

theorem read_of_ne_ok (connection : Connection) (hopen : connection.isOpen = true)
    (h : ∀ value reader,
      decoder (Reader.resume connection.message connection.position) ≠ .ok value reader) :
    ∃ e, read decoder connection = .error e connection.close := by
  cases hdecoder : decoder (Reader.resume connection.message connection.position) with
  | ok value reader => exact absurd hdecoder (h value reader)
  | error e reader => exact ⟨.wire e, by simp only [read, if_pos hopen, hdecoder]⟩

end Exchange

namespace Decoder

theorem u16_start_of_two_le {body : Bytes} (hlength : 2 ≤ body.length) :
    u16 (Reader.resume body 0) = .ok (Body.code body) ⟨2, body.drop 2⟩ := by
  refine (parses_u16 _ _ _).mpr ⟨_, rfl, Body.eq_code_append hlength, ?_⟩
  simp [Reader.resume]

theorem u16_start_of_lt_two {body : Bytes} (hlength : body.length < 2) (code : UInt16)
    (reader : Reader) : u16 (Reader.resume body 0) ≠ .ok code reader := by
  intro h
  obtain ⟨_, rfl, hrest, -⟩ := (parses_u16 _ _ _).mp h
  have hlong := congrArg List.length hrest
  rw [List.length_append, BigEndian.length_digits] at hlong
  simp only [Reader.resume, List.drop_zero] at hlong
  omega

end Decoder

namespace Exchange

variable {connection : Connection}

/-- Behind a type code the message is read with the decoder of that code. -/
theorem receive_of_two_le (hopen : connection.isOpen = true)
    (hlength : 2 ≤ connection.message.length) :
    receive connection =
      (match (MessageType.ofCode? (Body.code connection.message)).bind Request.decode? with
        | some decoder => (some <$> read decoder : Exchange (Option Request))
        | none => return none) (connection.marked 2 (Body.code connection.message)) := by
  have hcode : read Decoder.u16 { connection with position := 0 } =
      .ok (Body.code connection.message) { connection with position := 2 } :=
    read_of_eq_ok { connection with position := 0 } hopen (Decoder.u16_start_of_two_le hlength)
  change EStateM.bind (read Decoder.u16) _ { connection with position := 0 } = _
  simp only [EStateM.bind, hcode]
  rfl

theorem receive_of_layout?_eq_none (hopen : connection.isOpen = true)
    (hlength : 2 ≤ connection.message.length)
    (hlayout : Body.layout? (Body.code connection.message) = none) :
    receive connection = .ok none (connection.marked 2 (Body.code connection.message)) := by
  have hdecode :
      (MessageType.ofCode? (Body.code connection.message)).bind Request.decode? = none := by
    unfold Body.layout? at hlayout
    cases htype : MessageType.ofCode? (Body.code connection.message) with
    | none => rfl
    | some type =>
      rw [htype] at hlayout
      exact Request.decode?_eq_none hlayout
  rw [receive_of_two_le hopen hlength, hdecode]
  rfl

theorem receive_of_hasBody {request : Request} (hopen : connection.isOpen = true)
    (hbody : request.HasBody connection.message) :
    receive connection =
      .ok (some request) (connection.marked connection.message.length request.type.code) := by
  have hcode := Body.code_of_hasBody hbody
  obtain ⟨rest, hspelled, hmessage⟩ := hbody
  have hlength : connection.message.length = 2 + rest.length := by
    rw [hmessage, List.length_append, BigEndian.length_digits]
  have hdrop : connection.message.drop 2 = rest := by
    rw [hmessage, List.drop_left' (BigEndian.length_digits ..)]
  obtain ⟨layout, hlayout, -⟩ := request.exists_layout
  obtain ⟨decoder, hdecoder, hreads⟩ := Request.exists_decode? hlayout
  have hread : decoder (Reader.resume connection.message 2) =
      .ok request ⟨connection.message.length, []⟩ := by
    rw [Reader.resume_eq _ (by omega), hdrop]
    exact (hreads _ _ _).mpr ⟨⟨rfl, hspelled⟩, by simp only [hlength]⟩
  rw [receive_of_two_le hopen (by omega), hcode, MessageType.ofCode?_code, Option.bind_some,
    hdecoder]
  exact map_eq_ok_iff.mpr ⟨request,
    read_of_eq_ok (connection.marked 2 request.type.code) hopen hread, rfl⟩

/-- A malformed message is not received, and its connection is closed. -/
theorem receive_of_malformed (hopen : connection.isOpen = true)
    (hmalformed : Body.Malformed connection.message) :
    ∃ e position code, receive connection = .error e (connection.marked position code).close := by
  by_cases hlength : connection.message.length < 2
  · obtain ⟨e, hread⟩ := read_of_ne_ok { connection with position := 0 } hopen
      (Decoder.u16_start_of_lt_two hlength)
    refine ⟨e, 0, connection.messageCode, ?_⟩
    change EStateM.bind (read Decoder.u16) _ { connection with position := 0 } = _
    simp only [EStateM.bind, hread]
    rfl
  · obtain hshort | ⟨layout, hlayout, hspan⟩ := hmalformed
    · exact absurd hshort hlength
    · obtain ⟨type, htype, hlayout⟩ := Option.bind_eq_some_iff.mp hlayout
      obtain ⟨decoder, hdecoder, hreads⟩ := Request.exists_decode? hlayout
      have hfail : ∀ request reader,
          decoder (Reader.resume connection.message 2) ≠ .ok request reader := by
        intro request reader h
        obtain ⟨hrequest, -⟩ := (hreads _ _ _).mp h
        exact hspan ((Request.allSpan_iff hlayout).mpr ⟨request, hrequest⟩)
      obtain ⟨e, hread⟩ := read_of_ne_ok (connection.marked 2 (Body.code connection.message)) hopen
        hfail
      refine ⟨e, 2, Body.code connection.message, ?_⟩
      rw [receive_of_two_le hopen (Nat.not_lt.mp hlength), htype, Option.bind_some, hdecoder]
      change EStateM.map some (read decoder) _ = _
      simp only [EStateM.map, hread]

end Exchange

/-- The answer to the question for the name of the tunnel. -/
def Reply.ofTunnelName (requestCode : UInt16) : Except Status String → Reply
  | .ok name => .tunnelName requestCode .noError (some name)
  | .error status => .tunnelName requestCode status none

/-- The answer to a question for the name of the tunnel repeats the type code of the question. -/
theorem Reply.requestCode_ofTunnelName (code : UInt16) (answer : Except Status String) :
    (Reply.ofTunnelName code answer).requestCode = code := by
  cases answer <;> rfl

section

variable {β : Type} [Backend β]

namespace Connection

/-- The connection after its message was received as a request. -/
def parsed (connection : Connection) (request : Request) : Connection :=
  connection.marked connection.message.length request.type.code

/-- The ways through handling a message of an open connection: what is reported as changed, and what
becomes of the connection and the backend. -/
inductive Handles (before : Connection) (backend : β) : EventSet → Connection → β → Prop where
  | malformed (position : Nat) (code : UInt16) (hmalformed : Body.Malformed before.message) :
    Handles before backend .empty (before.marked position code).close backend
  | foreign {whole : Bool} {after : Connection} (hlength : 2 ≤ before.message.length)
    (hlayout : Body.layout? (Body.code before.message) = none)
    (hreply : (before.marked 2 (Body.code before.message)).Sends
      (.reply (.response (Body.code before.message) .invalid)) whole after) :
    Handles before backend .empty after backend
  | named {whole : Bool} {after : Connection} (hbody : Request.getTunnelName.HasBody before.message)
    (hreply : (before.parsed .getTunnelName).Sends
      (.reply (.ofTunnelName MessageType.getTunnelName.code (Backend.tunnelName backend)))
      whole after) :
    Handles before backend .empty after backend
  | unanswered {kind : EventKind} {after : Connection}
    (hbody : (Request.subscribe kind).HasBody before.message)
    (hreply : ((before.parsed (.subscribe kind)).subscribe kind).Sends
      (.reply (.response kind.requestType.code .noError)) false after) :
    Handles before backend .empty after backend
  | subscribed {kind : EventKind} {whole : Bool} {replied after : Connection}
    (hbody : (Request.subscribe kind).HasBody before.message)
    (hreply : ((before.parsed (.subscribe kind)).subscribe kind).Sends
      (.reply (.response kind.requestType.code .noError)) true replied)
    (hevent : replied.Sends (.event (Backend.currentEvent backend kind)) whole after) :
    Handles before backend .empty after backend
  | changed {request : Request} {change : Change β} {whole : Bool} {after : Connection}
    (hbody : request.HasBody before.message)
    (hchange : Backend.change? backend request = some change)
    (hreply : (before.parsed request).Sends
      (.reply (.response request.type.code change.status)) whole after) :
    Handles before backend (if whole then change.changed else .empty) after change.backend

end Connection

namespace Exchange

variable {connection middle : Connection}

theorem serve_of_receive_eq_change {request : Request} {change : Change β} (backend : β)
    (h : receive connection = .ok (some request) middle)
    (hchange : Backend.change? backend request = some change) :
    serve backend connection = .ok (some change) middle := by
  refine (bind_of_eq_ok h).trans ?_
  cases request with
  | getTunnelName | subscribe => cases hchange
  | _ =>
    simp only [hchange]
    rfl

theorem respond_eq (status : Status) (connection : Connection) : respond status connection =
    sendMessage (.reply (.response connection.messageCode status)) connection := rfl

theorem respondTunnelName_eq (status : Status) (name : Option String) (connection : Connection) :
    respondTunnelName status name connection =
      sendMessage (.reply (.tunnelName connection.messageCode status name)) connection := rfl

theorem answerTunnelName_eq (backend : β) (connection : Connection) :
    answerTunnelName backend connection = sendMessage
      (.reply (.ofTunnelName connection.messageCode (Backend.tunnelName backend))) connection := by
  unfold answerTunnelName
  cases Backend.tunnelName backend <;> rfl

/-- Where serving comes to one step that sends one message, so does handling. -/
theorem handle_of_serve_eq {message : ServerMessage} {step : Exchange Unit} (backend : β)
    (hopen : middle.isOpen = true)
    (hserve : serve backend connection = (do step; return none) middle)
    (hstep : step middle = sendMessage message middle) :
    ∃ whole after, middle.Sends message whole after ∧
      connection.handle backend = (.empty, after, backend) := by
  rcases sendMessage_cases middle message hopen with
    ⟨after, hsent, hsends⟩ | ⟨e, after, hsent, hsends⟩
  · rw [bind_of_eq_ok (hstep.trans hsent)] at hserve
    refine ⟨true, after, hsends, ?_⟩
    rw [Connection.handle, hserve]
    rfl
  · rw [bind_of_eq_error (hstep.trans hsent)] at hserve
    exact ⟨false, after, hsends, by rw [Connection.handle, hserve]⟩

end Exchange

namespace Connection

open Exchange

variable {connection : Connection}

theorem handle_of_malformed (backend : β) (hopen : connection.isOpen = true)
    (hmalformed : Body.Malformed connection.message) :
    ∃ position code,
      connection.handle backend = (.empty, (connection.marked position code).close, backend) := by
  obtain ⟨e, position, code, hreceive⟩ := receive_of_malformed hopen hmalformed
  have hserve : serve backend connection = _ := bind_of_eq_error hreceive
  exact ⟨position, code, by rw [handle, hserve]⟩

theorem handle_of_foreign (backend : β) (hopen : connection.isOpen = true)
    (hlength : 2 ≤ connection.message.length)
    (hlayout : Body.layout? (Body.code connection.message) = none) :
    ∃ whole after, (connection.marked 2 (Body.code connection.message)).Sends
        (.reply (.response (Body.code connection.message) .invalid)) whole after ∧
      connection.handle backend = (.empty, after, backend) :=
  handle_of_serve_eq backend hopen
    (bind_of_eq_ok (receive_of_layout?_eq_none hopen hlength hlayout)) (respond_eq ..)

theorem handle_of_getTunnelName (backend : β) (hopen : connection.isOpen = true)
    (hbody : Request.getTunnelName.HasBody connection.message) :
    ∃ whole after, (connection.parsed .getTunnelName).Sends
        (.reply (.ofTunnelName MessageType.getTunnelName.code (Backend.tunnelName backend)))
        whole after ∧
      connection.handle backend = (.empty, after, backend) :=
  handle_of_serve_eq backend hopen (bind_of_eq_ok (receive_of_hasBody hopen hbody))
    (answerTunnelName_eq ..)

theorem handle_of_change {request : Request} {change : Change β} (backend : β)
    (hopen : connection.isOpen = true) (hbody : request.HasBody connection.message)
    (hchange : Backend.change? backend request = some change) :
    ∃ whole after, (connection.parsed request).Sends
        (.reply (.response request.type.code change.status)) whole after ∧
      connection.handle backend =
        (if whole then change.changed else .empty, after, change.backend) := by
  have hserve : serve backend connection = .ok (some change) (connection.parsed request) :=
    serve_of_receive_eq_change backend (receive_of_hasBody hopen hbody) hchange
  rcases sendMessage_cases (connection.parsed request)
    (.reply (.response request.type.code change.status)) hopen with
    ⟨after, hsent, hsends⟩ | ⟨e, after, hsent, hsends⟩
  · refine ⟨true, after, hsends, ?_⟩
    simp only [handle, hserve, (respond_eq ..).trans hsent, if_true]
  · refine ⟨false, after, hsends, ?_⟩
    simp only [handle, hserve, (respond_eq ..).trans hsent, Bool.false_eq_true, if_false]

theorem handle_of_subscribe {kind : EventKind} (backend : β) (hopen : connection.isOpen = true)
    (hbody : (Request.subscribe kind).HasBody connection.message) :
    ∃ after, connection.handle backend = (.empty, after, backend) ∧
      connection.Handles backend .empty after backend := by
  have hserve : serve backend connection =
      (do answerSubscription backend kind; return none) (connection.parsed (.subscribe kind)) :=
    bind_of_eq_ok (receive_of_hasBody hopen hbody)
  have hanswer : answerSubscription backend kind (connection.parsed (.subscribe kind)) =
      (do respond .noError; sendEvent (Backend.currentEvent backend kind))
        ((connection.parsed (.subscribe kind)).subscribe kind) := rfl
  rcases sendMessage_cases ((connection.parsed (.subscribe kind)).subscribe kind)
    (.reply (.response kind.requestType.code .noError)) hopen with
    ⟨replied, hsent, hreply⟩ | ⟨e, after, hsent, hreply⟩
  · have hstill : replied.isOpen = true := by
      obtain ⟨output, outlet, rfl⟩ := hreply.eq hopen
      rfl
    rw [bind_of_eq_ok ((respond_eq ..).trans hsent)] at hanswer
    rcases sendMessage_cases replied (.event (Backend.currentEvent backend kind)) hstill with
      ⟨after, hpushed, hevent⟩ | ⟨e, after, hpushed, hevent⟩
    · rw [bind_of_eq_ok (hanswer.trans hpushed)] at hserve
      refine ⟨after, ?_, .subscribed hbody hreply hevent⟩
      rw [handle, hserve]
      rfl
    · rw [bind_of_eq_error (hanswer.trans hpushed)] at hserve
      exact ⟨after, by rw [handle, hserve], .subscribed hbody hreply hevent⟩
  · rw [bind_of_eq_error ((respond_eq ..).trans hsent)] at hanswer
    rw [bind_of_eq_error hanswer] at hserve
    exact ⟨after, by rw [handle, hserve], .unanswered hbody hreply⟩

/-- Handling the message of an open connection goes one of the ways through. -/
theorem handles_handle (connection : Connection) (backend : β) (hopen : connection.isOpen = true) :
    ∃ flags after left, connection.handle backend = (flags, after, left) ∧
      connection.Handles backend flags after left := by
  by_cases hmalformed : Body.Malformed connection.message
  · obtain ⟨position, code, hhandle⟩ := handle_of_malformed backend hopen hmalformed
    exact ⟨_, _, _, hhandle, .malformed position code hmalformed⟩
  rcases Body.not_malformed_iff.mp hmalformed with ⟨hlength, hlayout⟩ | ⟨request, hbody⟩
  · obtain ⟨whole, after, hreply, hhandle⟩ := handle_of_foreign backend hopen hlength hlayout
    exact ⟨_, _, _, hhandle, .foreign hlength hlayout hreply⟩
  · cases hchange : Backend.change? backend request with
    | some change =>
      obtain ⟨whole, after, hreply, hhandle⟩ := handle_of_change backend hopen hbody hchange
      exact ⟨_, _, _, hhandle, .changed hbody hchange hreply⟩
    | none =>
      cases request with
      | subscribe kind =>
        obtain ⟨after, hhandle, hhandles⟩ := handle_of_subscribe backend hopen hbody
        exact ⟨_, _, _, hhandle, hhandles⟩
      | getTunnelName =>
        obtain ⟨whole, after, hreply, hhandle⟩ := handle_of_getTunnelName backend hopen hbody
        exact ⟨_, _, _, hhandle, .named hbody hreply⟩
      | addService | removeService => cases hchange
      | addPrefix terms =>
        cases hmesh : MeshPrefix.ofBytes? terms.meshPrefix <;>
          simp [Backend.change?, hmesh] at hchange
      | removePrefix bytes length =>
        cases hmesh : MeshPrefix.ofBytes? bytes <;> simp [Backend.change?, hmesh] at hchange

end Connection

end

end MeshControl
