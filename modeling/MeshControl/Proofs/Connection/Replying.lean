import MeshControl.Proofs.Connection.Announcing
import MeshControl.Proofs.Connection.Conveying
import MeshControl.Proofs.Connection.Handling

/-!
A reply that is sent means what its handler meant. Over a stream that takes every write a message
that fits into a frame is written in one piece, and the buffer is not grown once the message was
begun (`Exchange.sendMessage_of_accepting`). A status always fits, and so does the absence of a
name; a name fits up to 65525 bytes, which is below the length at which a text cannot be told from
its absence. What arrives is decoded to the answer with the type code of the request
(`Connection.replies_mean_answers`).
-/

namespace MeshControl

/-- An accepting stream takes a write whole and goes on accepting. -/
theorem Outlet.write_of_accepting {outlet : Outlet} (bytes : Bytes) (h : outlet.IsAccepting) :
    ∃ after, outlet.write bytes = (.ok bytes.length, after) ∧ after.IsAccepting := by
  obtain ⟨upcoming, log⟩ := outlet
  unfold write
  induction upcoming generalizing log with
  | nil => exact ⟨_, rfl, h⟩
  | cons acceptance later ih =>
    have hlater (log : List Write) : IsAccepting ⟨later, log⟩ := fun other hother =>
      h other (List.mem_cons_of_mem _ hother)
    obtain rfl | rfl := h acceptance (List.mem_cons_self ..)
    · exact ⟨_, rfl, hlater _⟩
    · exact ih _ (hlater _)

/-- A message that fits into a frame is sent over an accepting stream, in one piece and from a
buffer that was large enough when the message was begun. -/
theorem Exchange.sendMessage_of_accepting {connection : Connection} {message : ServerMessage}
    (hopen : connection.isOpen = true) (haccepting : connection.outlet.IsAccepting)
    (hfits : message.Fits) :
    ∃ payload output outlet, message.payload? = some payload ∧
      sendMessage message connection = .ok () { connection with output, outlet } ∧
      outlet.IsAccepting ∧
      connection.outlet.Wrote (FrameStream.frame payload)
        (.took (FrameStream.frame payload).length) outlet ∧
      ∃ started, Frame.start message.type message.size connection.output = .ok () started ∧
        output.capacity = started.capacity := by
  obtain ⟨frame, output, hencode⟩ :=
    (message.exists_encode_eq_ok_iff connection.output).mpr hfits
  obtain ⟨payload, hpayload, rfl⟩ := Frame.payload?_of_build_eq_ok hencode
  obtain ⟨outlet, hwrite, hstill⟩ :=
    Outlet.write_of_accepting (FrameStream.frame payload) haccepting
  refine ⟨payload, output, outlet, hpayload, ?_, hstill, Outlet.wrote_of_write hwrite,
    ServerMessage.capacity_of_encode_eq_ok hencode⟩
  change Frame.build message.type message.size message.fields connection.output = _ at hencode
  simp only [sendMessage, send, if_pos hopen, hencode, hwrite, if_true]

/-- A message that is too long for a frame closes the connection before anything is written. -/
theorem Exchange.sendMessage_of_not_fits {message : ServerMessage} (hlong : ¬ message.Fits)
    (connection : Connection) :
    ∃ e after, sendMessage message connection = .error e after ∧ after.isOpen = false ∧
      after.outlet = connection.outlet :=
  sendMessage_of_payload?_eq_none (message.payload?_eq_none_iff.mpr hlong) connection

theorem Exchange.fits_of_sendMessage_eq_ok {connection after : Connection}
    {message : ServerMessage} (h : sendMessage message connection = .ok () after) :
    message.Fits := by
  by_contra hlong
  obtain ⟨e, _, hsend, -⟩ := sendMessage_of_not_fits hlong connection
  rw [hsend] at h
  cases h

namespace Connection

/-- A frame was written in one piece that the peer decodes to a reply. The buffer that it was built
in has not grown since the frame was begun, and the connection is as it was otherwise. -/
structure Delivers (before : Connection) (reply : Reply) (after : Connection) : Prop where
  otherwise_same : ∃ output outlet, after = { before with output, outlet }
  written : ∃ payload, before.outlet.Wrote (FrameStream.frame payload)
      (.took (FrameStream.frame payload).length) after.outlet ∧
    ServerMessage.decode payload = .ok (.reply reply)
  not_grown : ∃ started, Frame.start reply.type reply.size before.output = .ok () started ∧
    after.output.capacity = started.capacity

variable {connection : Connection}

theorem exists_delivers {reply : Reply} (hopen : connection.isOpen = true)
    (haccepting : connection.outlet.IsAccepting) (hfits : (ServerMessage.reply reply).Fits) :
    ∃ after, Exchange.sendMessage (.reply reply) connection = .ok () after ∧
      connection.Delivers reply.normal after := by
  obtain ⟨payload, output, outlet, hpayload, hsend, -, hwrote, started, hstart, hcapacity⟩ :=
    Exchange.sendMessage_of_accepting hopen haccepting hfits
  refine ⟨_, hsend, ⟨⟨output, outlet, rfl⟩,
    ⟨payload, hwrote, ServerMessage.decode_payload hpayload⟩, ⟨started, ?_, hcapacity⟩⟩⟩
  -- Reading a status under its name changes neither the type nor the size of a reply.
  cases reply <;> exact hstart

/-- Over a stream that takes every write, a status and the absence of a name always arrive, and a
name arrives exactly if it has at most 65525 bytes. What arrives is the answer with the type code of
the latest message and the status of the code that was sent. A longer name closes the connection
before anything is written. -/
theorem replies_mean_answers (hopen : connection.isOpen = true)
    (haccepting : connection.outlet.IsAccepting) (status : Status) :
    (∃ after, Exchange.respond status connection = .ok () after ∧
      connection.Delivers (.response connection.messageCode (Status.ofCode status.code)) after) ∧
    (∃ after, Exchange.respondTunnelName status none connection = .ok () after ∧
      connection.Delivers
        (.tunnelName connection.messageCode (Status.ofCode status.code) none) after) ∧
    ∀ name : String,
      ((∃ after, Exchange.respondTunnelName status (some name) connection = .ok () after) ↔
        name.utf8ByteSize ≤ 65525) ∧
      (∀ after, Exchange.respondTunnelName status (some name) connection = .ok () after →
        connection.Delivers
          (.tunnelName connection.messageCode (Status.ofCode status.code) (some name)) after) ∧
      (65525 < name.utf8ByteSize →
        ∃ e after, Exchange.respondTunnelName status (some name) connection = .error e after ∧
          after.isOpen = false ∧ after.outlet = connection.outlet) := by
  simp only [Exchange.respond_eq, Exchange.respondTunnelName_eq]
  refine ⟨exists_delivers hopen haccepting (ServerMessage.fits_response ..),
    exists_delivers hopen haccepting (ServerMessage.fits_tunnelName_none ..), fun name => ?_⟩
  have hfits := ServerMessage.fits_tunnelName_some_iff connection.messageCode status name
  refine ⟨⟨fun h => ?_, fun hsize => ?_⟩, fun after hsend => ?_, fun hlong => ?_⟩
  · obtain ⟨after, hsend⟩ := h
    exact hfits.mp (Exchange.fits_of_sendMessage_eq_ok hsend)
  · obtain ⟨after, hsend, -⟩ := exists_delivers hopen haccepting (hfits.mpr hsize)
    exact ⟨after, hsend⟩
  · obtain ⟨other, hother, hdelivers⟩ :=
      exists_delivers hopen haccepting (Exchange.fits_of_sendMessage_eq_ok hsend)
    rw [hsend] at hother
    rwa [(EStateM.Result.ok.inj hother).2]
  · exact Exchange.sendMessage_of_not_fits (mt hfits.mp (Nat.not_le_of_gt hlong)) connection

/-- A connection that was asked for the name of the tunnel, with a buffer that held something else
and a stream that is interrupted once. -/
def asked : Connection where
  id := 1
  input := .empty
  outlet := { upcoming := [.interrupted] }
  output := ⟨#[222, 173, 190, 239], 4, Nat.le_refl 4⟩
  messageCode := 6

/-- The empty name arrives as a name, and a status whose code has a name arrives under it. -/
theorem replies_mean_answers_asked :
    asked.isOpen = true ∧ asked.outlet.IsAccepting ∧
      (∃ after, Exchange.respond (.other (-65549)) asked = .ok () after ∧
        asked.Delivers (.response 6 .invalid) after) ∧
      (∃ after, Exchange.respondTunnelName .noError (some "") asked = .ok () after ∧
        asked.Delivers (.tunnelName 6 .noError (some "")) after) ∧
      ∀ name : String, 65525 < name.utf8ByteSize → ∃ e after,
        Exchange.respondTunnelName .noError (some name) asked = .error e after ∧
          after.isOpen = false ∧ after.outlet = asked.outlet := by
  have haccepting : asked.outlet.IsAccepting := by simp [asked, Outlet.IsAccepting]
  obtain ⟨hstatus, -, -⟩ := replies_mean_answers rfl haccepting (.other (-65549))
  obtain ⟨-, -, hname⟩ := replies_mean_answers rfl haccepting .noError
  obtain ⟨hsent, harrives, -⟩ := hname ""
  obtain ⟨after, hsend⟩ := hsent.mpr (Nat.zero_le _)
  exact ⟨rfl, haccepting, hstatus, ⟨after, hsend, harrives after hsend⟩,
    fun name => (hname name).2.2⟩

end Connection

end MeshControl
