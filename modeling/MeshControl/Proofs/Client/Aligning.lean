import MeshControl.Proofs.Client.Receiving
import MeshControl.Proofs.Client.Waiting

/-!
A client keeps its place in the stream as long as no call fails for want of bytes. A request that
cannot be built is not sent and nothing is read for it, and what is left of it in the buffer does
not get into a later one (`Client.sent_send`). A message that is read takes one whole frame away,
whatever its body and whatever the buffer held before (`Client.readsBody_of_incoming`). So in every
run in which each call succeeds, or fails for another reason than the connection, the client is
before a whole frame after every call (`Reception.stays_aligned`).
-/

namespace MeshControl

namespace Client

/-- How a call fails, if it does. -/
def failure? {α : Type} : EStateM.Result ClientError Client α → Option ClientError
  | .ok _ _ => none
  | .error e _ => some e

/-- What a client that has just connected writes for a request. -/
def written (request : Request) : Bytes := (left (send request {})).channel.sent

variable {client : Client} {request : Request} {underWay : Bytes} {letters : List Bytes}

/-- What is written for a request does not depend on what was in the buffer. -/
theorem written_of_encode_eq_ok {bytes : Bytes} {before after : Buffer}
    (hencode : request.encode before = .ok bytes after) : written request = bytes := by
  obtain ⟨payload, hpayload, rfl⟩ := Request.payload?_of_encode_eq_ok hencode
  obtain ⟨writeBuffer, hsend⟩ := @send_of_payload? {} request payload hpayload rfl
  rw [written, hsend]
  exact List.nil_append _

/-- A request that cannot be built in some buffer cannot be built in any. -/
theorem written_of_encode_eq_error {e : WireError} {before after : Buffer}
    (hencode : request.encode before = .error e after) : written request = [] := by
  have hnone : request.payload? = none := by
    cases hpayload : request.payload? with
    | none => rfl
    | some payload =>
      obtain ⟨built, hbuilt⟩ := Request.exists_encode_eq_ok before hpayload
      rw [hencode] at hbuilt
      cases hbuilt
  obtain ⟨e, writeBuffer, hsend⟩ := send_of_payload?_eq_none {} hnone
  rw [written, hsend]
  rfl

/-- A request that cannot be built ends its call, and nothing but the buffer is changed. -/
theorem perform_of_encode_eq_error {e : WireError} {writeBuffer : Buffer}
    (hencode : request.encode client.writeBuffer = .error e writeBuffer) :
    perform request client = .error (.wire e) { client with writeBuffer } := by
  rw [perform_eq]
  exact bind_of_eq_error (send_of_encode_eq_error hencode)

/-- A client writes for a request what any other would write, if somebody reads it. -/
theorem sent_send (request : Request) (hheard : client.channel.isHeard = true) :
    (left (send request client)).channel.sent = client.channel.sent ++ written request := by
  cases hencode : request.encode client.writeBuffer with
  | ok bytes writeBuffer =>
    rw [send_of_isHeard hencode hheard, written_of_encode_eq_ok hencode]
    rfl
  | error e writeBuffer =>
    rw [send_of_encode_eq_error hencode, written_of_encode_eq_error hencode, List.append_nil]
    rfl

/-- A send that does not fail for the connection has written its request. -/
theorem sent_send_of_failure?
    (hgoes : ∀ e ∈ failure? (send request client), e.isShortage = false) :
    (left (send request client)).channel.sent = client.channel.sent ++ written request := by
  cases hheard : client.channel.isHeard with
  | true => exact sent_send request hheard
  | false =>
    cases hencode : request.encode client.writeBuffer with
    | ok bytes writeBuffer =>
      -- Nobody would read what is built, so that the send fails.
      rw [send_of_unheard hencode hheard] at hgoes
      cases hgoes _ rfl
    | error e writeBuffer =>
      rw [send_of_encode_eq_error hencode, written_of_encode_eq_error hencode, List.append_nil]
      rfl

/-- Reading a message takes one frame away and leaves what is behind it. The message is what the
body of the frame decodes to. -/
def ReadsBody (client : Client) (body rest : Bytes) : Prop :=
  ∃ readBuffer,
    let after := { client with
      channel := { client.channel with incoming := rest }, readBuffer }
    readMessage client =
      match ServerMessage.decode body with
      | .ok message => .ok message after
      | .error e => .error (.wire e) after

/-- A frame that has arrived whole is read as one message, whatever was read before. -/
theorem readsBody_of_incoming {body rest : Bytes} (hlength : body.length ≤ maxPayload)
    (hincoming : client.channel.incoming = FrameStream.frame body ++ rest) :
    client.ReadsBody body rest := by
  have hfront : FrameStream.front? client.channel.incoming = some (body, rest) := by
    rw [hincoming, FrameStream.front?_frame_append (BigEndian.lt_span_two_iff.mpr hlength)]
  unfold ReadsBody
  cases hdecode : ServerMessage.decode body with
  | ok message => exact readMessage_of_front? hfront hdecode
  | error e => exact readMessage_of_undecodable hfront hdecode

/-- A client at the boundary of a frame reads the body of that frame, as soon as it is there. -/
theorem Faces.readsBody {body : Bytes} {others : List Bytes}
    (hfaces : client.Faces underWay (body :: others)) (hlength : body.length ≤ maxPayload)
    (harrived : (FrameStream.frame body).length ≤ client.channel.incoming.length) :
    ∃ rest, client.channel.incoming = FrameStream.frame body ++ rest ∧
      client.ReadsBody body rest := by
  have hframe : FrameStream.frame body <+: client.channel.incoming ++ underWay := by
    rw [hfaces, FrameStream.joined]
    exact List.prefix_append ..
  obtain ⟨rest, hrest⟩ :=
    List.prefix_of_prefix_length_le hframe (List.prefix_append ..) harrived
  exact ⟨rest, hrest.symm, readsBody_of_incoming hlength hrest.symm⟩

/-- Only what has arrived, the buffer for it and the queue may differ. -/
def Reads (before after : Client) : Prop :=
  ∃ incoming readBuffer pending, after =
    { before with channel := { before.channel with incoming }, readBuffer, pending }

theorem Reads.trans {before middle after : Client} (hfirst : before.Reads middle)
    (hsecond : middle.Reads after) : before.Reads after := by
  obtain ⟨_, _, _, rfl⟩ := hfirst
  obtain ⟨_, _, _, rfl⟩ := hsecond
  exact ⟨_, _, _, rfl⟩

theorem Reads.sent_eq {before after : Client} (h : before.Reads after) :
    after.channel.sent = before.channel.sent := by
  obtain ⟨_, _, _, rfl⟩ := h
  rfl

theorem Reads.ended_eq {before after : Client} (h : before.Reads after) :
    after.channel.ended = before.channel.ended := by
  obtain ⟨_, _, _, rfl⟩ := h
  rfl

theorem reads_readMessage (client : Client) : client.Reads (left (readMessage client)) := by
  cases hfront : FrameStream.front? client.channel.incoming with
  | none =>
    obtain ⟨readBuffer, hread⟩ := readMessage_of_lacking hfront
    rw [hread]
    exact ⟨[], readBuffer, client.pending, rfl⟩
  | some found =>
    obtain ⟨body, rest⟩ := found
    cases hdecode : ServerMessage.decode body with
    | ok message =>
      obtain ⟨readBuffer, hread⟩ := readMessage_of_front? hfront hdecode
      rw [hread]
      exact ⟨rest, readBuffer, client.pending, rfl⟩
    | error e =>
      obtain ⟨readBuffer, hread⟩ := readMessage_of_undecodable hfront hdecode
      rw [hread]
      exact ⟨rest, readBuffer, client.pending, rfl⟩

theorem reads_readReply (client : Client) : client.Reads (left (readReply client)) := by
  fun_induction readReply client with
  | case1 client e after hread | case2 client reply after hread =>
    have hreads := reads_readMessage client
    rwa [hread] at hreads
  | case3 client event after hread hlength ih =>
    have hreads := reads_readMessage client
    rw [hread] at hreads
    exact (hreads.trans ⟨_, _, _, rfl⟩).trans ih

theorem reads_nextEvent (client : Client) : client.Reads (left (nextEvent client)) := by
  unfold nextEvent
  split
  · exact ⟨_, _, _, rfl⟩
  · have hreads := reads_readMessage client
    unfold readEvent
    split <;> rename_i hread <;> rw [hread] at hreads <;> exact hreads

/-- A wait that does not fail for the connection leaves the client before a whole frame. -/
theorem faces_settleCall (hshort : ∀ body ∈ letters, body.length < BigEndian.span 2)
    (hfaces : client.Faces underWay letters)
    (hgoes : ∀ e ∈ failure? (settleCall request client), e.isShortage = false) :
    ∃ passed rest, letters = passed ++ rest ∧
      (left (settleCall request client)).Faces underWay rest := by
  rcases readReply_cases hshort hfaces with
    ⟨skipped, body, rest, reply, after, rfl, -, -, hread, hrest⟩ |
      ⟨passed, rest, e, after, rfl, -, hread, -, hkept⟩
  · refine ⟨skipped ++ [body], rest, by simp, ?_⟩
    rwa [settleCall_of_readReply hread, left_give]
  · rw [settleCall_of_error hread] at hgoes ⊢
    exact ⟨passed, rest, rfl, hkept (breaksOff_eq_false client (hgoes e rfl))⟩

/-- Likewise when an event is taken. -/
theorem faces_nextEvent (hshort : ∀ body ∈ letters, body.length < BigEndian.span 2)
    (hfaces : client.Faces underWay letters)
    (hgoes : ∀ e ∈ failure? (nextEvent client), e.isShortage = false) :
    ∃ passed rest, letters = passed ++ rest ∧ (left (nextEvent client)).Faces underWay rest := by
  obtain ⟨passed, rest, rfl, ⟨event, after, htake, -, hrest⟩ | ⟨e, after, htake, -, hkept⟩⟩ :=
    nextEvent_cases hshort hfaces
  · rw [htake]
    exact ⟨passed, rest, rfl, hrest⟩
  · rw [htake] at hgoes ⊢
    exact ⟨passed, rest, rfl, hkept (breaksOff_eq_false client (hgoes e rfl))⟩

end Client

/-- The request of a call. -/
def Happening.request? : Happening → Option Request
  | .call request _ => some request
  | _ => none

namespace Reception

/-- How the call that a client makes fails, if it does. -/
def failure? (reception : Reception) : Happening → Option ClientError
  | .call request count =>
    match Client.send request reception.client with
    | .ok _ client =>
      Client.failure? (Client.settleCall request ({ reception with client }.bring count).client)
    | .error e _ => some e
  | .takeEvent => Client.failure? (Client.nextEvent reception.client)
  | _ => none

/-- Whether no call fails for the connection. -/
def goesOn : Reception → List Happening → Bool
  | _, [] => true
  | reception, happening :: later =>
    (reception.failure? happening).all (fun e => !e.isShortage) &&
      (reception.act happening).goesOn later

/-- A client is at the boundary of a frame: what is before it are the last of the frames that the
server has written. -/
structure Aligned (reception : Reception) : Prop where
  short : ∀ body ∈ reception.letters, body.length < BigEndian.span 2
  boundary : ∃ passed rest, reception.letters = passed ++ rest ∧
    reception.client.Faces reception.underWay rest

variable {reception : Reception} {happening : Happening} {happenings : List Happening}

theorem isShortage_of_goesOn_cons (h : reception.goesOn (happening :: happenings) = true) :
    (∀ e ∈ reception.failure? happening, e.isShortage = false) ∧
      (reception.act happening).goesOn happenings = true := by
  rw [goesOn, Bool.and_eq_true] at h
  refine ⟨fun e he => ?_, h.2⟩
  rw [Option.mem_def] at he
  simpa [he] using h.1

theorem Aligned.of_incoming_eq (h : reception.Aligned) {client : Client}
    (hincoming : client.channel.incoming = reception.client.channel.incoming) :
    Aligned { reception with client } where
  short := h.short
  boundary := by
    obtain ⟨passed, rest, hletters, hfaces⟩ := h.boundary
    exact ⟨passed, rest, hletters, hfaces.of_incoming_eq hincoming⟩

theorem Aligned.write (h : reception.Aligned) (body : Bytes) : (reception.write body).Aligned := by
  unfold Reception.write
  split
  · rename_i hlength
    obtain ⟨passed, rest, hletters, hfaces⟩ := h.boundary
    exact ⟨BigEndian.lt_span_two_append h.short hlength, passed, rest ++ [body],
      by rw [hletters, List.append_assoc], hfaces.write body⟩
  · exact h

theorem Aligned.bring (h : reception.Aligned) (count : Nat) : (reception.bring count).Aligned := by
  unfold Reception.bring
  split
  · exact h
  · rename_i hgoes
    obtain ⟨passed, rest, hletters, hfaces⟩ := h.boundary
    exact ⟨h.short, passed, rest, hletters, hfaces.deliver hgoes count⟩

/-- What a client passes over is added to what it has passed before. -/
theorem Aligned.passes (h : reception.Aligned) {client : Client}
    (hpasses : ∀ letters, (∀ body ∈ letters, body.length < BigEndian.span 2) →
      reception.client.Faces reception.underWay letters →
      ∃ passed rest, letters = passed ++ rest ∧ client.Faces reception.underWay rest)
    (taken : List Portion) (handed : List Event) :
    Aligned { reception with client, taken, handed } where
  short := h.short
  boundary := by
    obtain ⟨passed, behind, hletters, hfaces⟩ := h.boundary
    have hshort : ∀ body ∈ behind, body.length < BigEndian.span 2 := fun body hbody =>
      h.short body (hletters ▸ List.mem_append_right passed hbody)
    obtain ⟨more, rest, hbehind, hrest⟩ := hpasses behind hshort hfaces
    exact ⟨passed ++ more, rest, by rw [hletters, hbehind, List.append_assoc], hrest⟩

theorem Aligned.call (h : reception.Aligned) {request : Request} {count : Nat}
    (hgoes : ∀ e ∈ reception.failure? (.call request count), e.isShortage = false) :
    (reception.call request count).Aligned := by
  have hincoming := Client.takes_send request reception.client
  unfold Reception.call
  rw [failure?] at hgoes
  cases hsend : Client.send request reception.client with
  | error e client =>
    rw [hsend] at hincoming
    exact h.of_incoming_eq hincoming.bytes_eq
  | ok value client =>
    rw [hsend] at hincoming hgoes
    have hsent : Aligned { reception with client } := h.of_incoming_eq hincoming.bytes_eq
    exact (hsent.bring count).passes
      (fun _ hshort hfaces => Client.faces_settleCall hshort hfaces hgoes) _ _

theorem Aligned.takeEvent (h : reception.Aligned)
    (hgoes : ∀ e ∈ reception.failure? .takeEvent, e.isShortage = false) :
    reception.takeEvent.Aligned :=
  h.passes (fun _ hshort hfaces => Client.faces_nextEvent hshort hfaces hgoes) _ _

/-- Every call that does not fail for the connection leaves the client at the boundary of a frame,
and so does everything that happens in between. -/
theorem Aligned.act (h : reception.Aligned)
    (hgoes : ∀ e ∈ reception.failure? happening, e.isShortage = false) :
    (reception.act happening).Aligned := by
  cases happening with
  | write body => exact h.write body
  | bring count => exact h.bring count
  | finish | drop => exact h.of_incoming_eq rfl
  | call request count => exact h.call hgoes
  | takeEvent => exact h.takeEvent hgoes

theorem Aligned.foldl (h : reception.Aligned) (hgoes : reception.goesOn happenings = true) :
    (happenings.foldl Reception.act reception).Aligned := by
  induction happenings generalizing reception with
  | nil => exact h
  | cons happening happenings ih =>
    obtain ⟨hnow, hlater⟩ := isShortage_of_goesOn_cons hgoes
    exact ih (h.act hnow) hlater

theorem sent_bring (reception : Reception) (count : Nat) :
    (reception.bring count).client.channel.sent = reception.client.channel.sent := by
  unfold Reception.bring
  split
  · rfl
  · rename_i hgoes
    rw [Channel.deliver, if_neg hgoes]

theorem sent_call {request : Request} {count : Nat}
    (hgoes : ∀ e ∈ reception.failure? (.call request count), e.isShortage = false) :
    (reception.call request count).client.channel.sent =
      reception.client.channel.sent ++ Client.written request := by
  have hsent : (∀ e ∈ Client.failure? (Client.send request reception.client),
      e.isShortage = false) → _ := Client.sent_send_of_failure?
  rw [failure?] at hgoes
  unfold Reception.call
  cases hsend : Client.send request reception.client with
  | error e client =>
    rw [hsend] at hgoes hsent
    exact hsent hgoes
  | ok value client =>
    rw [hsend] at hsent
    rw [← hsent nofun]
    change (Client.left (Client.settleCall request _)).channel.sent = _
    rw [Client.left_settleCall, (Client.reads_readReply _).sent_eq, sent_bring]
    rfl

/-- What a client writes are the frames of the requests that it makes, each as any other client
would write it. -/
theorem sent_foldl (hgoes : reception.goesOn happenings = true) :
    (happenings.foldl Reception.act reception).client.channel.sent =
      reception.client.channel.sent ++
        (happenings.filterMap Happening.request?).flatMap Client.written := by
  induction happenings generalizing reception with
  | nil => exact (List.append_nil _).symm
  | cons happening happenings ih =>
    obtain ⟨hnow, hlater⟩ := isShortage_of_goesOn_cons hgoes
    have hsame (hnone : happening.request? = none)
        (hsent : (reception.act happening).client.channel.sent = reception.client.channel.sent) :
        ((happening :: happenings).foldl Reception.act reception).client.channel.sent =
          reception.client.channel.sent ++
            ((happening :: happenings).filterMap Happening.request?).flatMap Client.written := by
      rw [List.foldl_cons, ih hlater, hsent, List.filterMap_cons_none hnone]
    cases happening with
    | call request count =>
      have hsent : (reception.act (.call request count)).client.channel.sent = _ := sent_call hnow
      rw [List.foldl_cons, ih hlater, hsent, List.append_assoc]
      rfl
    | takeEvent => exact hsame rfl (Client.reads_nextEvent _).sent_eq
    | bring count => exact hsame rfl (sent_bring ..)
    | write body =>
      refine hsame rfl ?_
      change (reception.write body).client.channel.sent = _
      unfold Reception.write
      split <;> rfl
    | finish | drop => exact hsame rfl rfl

/-- Errors other than those of the connection keep the stream aligned. A client that is at the
boundary of a frame, with anything in its buffers and its queue, is at one again after any calls
that succeed, fail with a status, meet an unexpected reply or fail to build or to decode a message,
and it has written for each request what a client that has just connected would have written. The
frame that it reads next is the first of those that it has not passed. A request that cannot be
built changes nothing but the buffer, one that can be built is written as ever, and every frame that
has arrived whole is taken away as one message, which comes from its own body. -/
theorem stays_aligned {client : Client} {underWay : Bytes} {letters : List Bytes}
    (hlength : ∀ body ∈ letters, body.length ≤ maxPayload)
    (hfaces : client.Faces underWay letters) (happenings : List Happening)
    (hgoes : goesOn { client, underWay, letters } happenings = true) :
    let last := happenings.foldl act { client, underWay, letters }
    (∃ passed rest, last.letters = passed ++ rest ∧ last.client.Faces last.underWay rest ∧
      ∀ body others, rest = body :: others →
        (FrameStream.frame body).length ≤ last.client.channel.incoming.length →
        ∃ behind, last.client.channel.incoming = FrameStream.frame body ++ behind ∧
          last.client.ReadsBody body behind) ∧
    last.client.channel.sent = client.channel.sent ++
      (happenings.filterMap Happening.request?).flatMap Client.written ∧
    (∀ request e writeBuffer, request.encode last.client.writeBuffer = .error e writeBuffer →
      Client.perform request last.client = .error (.wire e) { last.client with writeBuffer }) ∧
    (∀ request, last.client.channel.isHeard = true →
      (Client.left (Client.send request last.client)).channel.sent =
        last.client.channel.sent ++ Client.written request) ∧
    ∀ (reader : Client) body rest, body.length ≤ maxPayload →
      reader.channel.incoming = FrameStream.frame body ++ rest → reader.ReadsBody body rest := by
  intro last
  have hstart : Aligned { client, underWay, letters } :=
    { short := fun body hbody => BigEndian.lt_span_two_iff.mpr (hlength body hbody)
      boundary := ⟨[], letters, rfl, hfaces⟩ }
  have hlast : last.Aligned := hstart.foldl hgoes
  obtain ⟨passed, rest, hletters, hrest⟩ := hlast.boundary
  refine ⟨⟨passed, rest, hletters, hrest, ?_⟩, sent_foldl hgoes, ?_, ?_, ?_⟩
  · rintro body others rfl harrived
    have hbody : body ∈ last.letters := by rw [hletters]; simp
    exact hrest.readsBody (BigEndian.lt_span_two_iff.mp (hlast.short body hbody)) harrived
  · exact fun request e writeBuffer => Client.perform_of_encode_eq_error
  · exact fun request => Client.sent_send request
  · exact fun reader body rest => Client.readsBody_of_incoming

/-- A frame without a message, an event and the reply to another request come before the reply that
is asked for. -/
def unruly : List Bytes :=
  [[9], [0, 8, 0, 0, 0, 2, 0, 0, 0, 5], [0, 1, 0, 2, 0, 0, 0, 0], [0, 1, 0, 3, 0, 0, 0, 0]]

/-- A client that has failed before: its buffers hold what is left of other messages, and part of
the second frame has arrived. -/
def worn : Client where
  channel := { incoming := [0, 1, 9, 0, 10, 0] }
  writeBuffer := ⟨#[0, 90, 0, 2, 7], 3, by decide⟩
  readBuffer := ⟨#[0, 8, 0, 0], 4, by decide⟩
  pending := [.role .leader]

def unsettled : List Happening :=
  [.call (.removeService 1 [7]) 3, .takeEvent, .call .getTunnelName 60]

/-- A request that is one byte too long for a frame. -/
def overlong : Request := .removeService 1 (List.replicate 65528 0)

theorem exists_encode_eq_error {enterprise : UInt32} {serviceData : Bytes}
    (hlong : maxPayload < 8 + serviceData.length) (before : Buffer) :
    ∃ e after, (Request.removeService enterprise serviceData).encode before = .error e after := by
  cases hencode : (Request.removeService enterprise serviceData).encode before with
  | error e after => exact ⟨e, after, rfl⟩
  | ok bytes after =>
    obtain ⟨payload, hpayload, -⟩ := Request.payload?_of_encode_eq_ok hencode
    have hsize := (Request.exists_payload?_iff _).mp ⟨payload, hpayload⟩
    simp only [Request.fields, Field.totalSize, Field.size] at hsize
    omega

theorem stays_aligned_worn :
    let underWay := (FrameStream.joined unruly).drop 6
    let last := unsettled.foldl act { client := worn, underWay, letters := unruly }
    (∀ body ∈ unruly, body.length ≤ maxPayload) ∧ worn.Faces underWay unruly ∧
    goesOn { client := worn, underWay, letters := unruly } unsettled = true ∧
    last.client.pending = [.partition 5] ∧
    last.client.channel.sent = [0, 9, 0, 3, 0, 0, 0, 1, 0, 1, 7, 0, 2, 0, 6] ∧
    (∃ e writeBuffer,
      Client.perform overlong last.client = .error (.wire e) { last.client with writeBuffer }) ∧
    last.client.ReadsBody [0, 1, 0, 3, 0, 0, 0, 0] [] := by
  have hlength : ∀ body ∈ unruly, body.length ≤ maxPayload := by decide
  have hfaces : worn.Faces ((FrameStream.joined unruly).drop 6) unruly := by
    unfold Client.Faces
    decide
  have hgoes : goesOn { client := worn, underWay := (FrameStream.joined unruly).drop 6
                        letters := unruly } unsettled = true := by
    decide +kernel
  obtain ⟨-, hsent, hunsent, -, hread⟩ := stays_aligned hlength hfaces unsettled hgoes
  refine ⟨hlength, hfaces, hgoes, ?_, hsent.trans ?_, ?_, hread _ _ _ ?_ ?_⟩
  · decide +kernel
  · decide +kernel
  · have hlong : maxPayload < 8 + (List.replicate 65528 (0 : UInt8)).length := by
      rw [List.length_replicate]
      decide
    exact (exists_encode_eq_error hlong _).imp fun _ => Exists.imp fun _ => hunsent overlong _ _
  · decide
  · decide +kernel

end Reception

end MeshControl
