import MeshControl.Client.Call
import MeshControl.Proofs.Message.Fitting

/-!
What a client makes of what has arrived. Reading a message succeeds if a whole frame with a message
has arrived, and takes it away; on a stream that has not ended it is too early as long as no whole
frame has. So while a client waits for its reply, events that come before it are queued in order,
and until the whole reply is there the wait is not over (`readReply_of_joined`).
-/

namespace MeshControl

/-- What has arrived of a frame with more behind it contains the frame, or no whole frame. -/
theorem FrameStream.front?_of_append_eq {arrived missing body more : Bytes}
    (hlength : body.length < BigEndian.span 2) (h : arrived ++ missing = frame body ++ more) :
    (∃ rest, arrived = frame body ++ rest ∧ rest ++ missing = more) ∨
      (missing ≠ [] ∧ front? arrived = none) := by
  rcases List.append_eq_append_iff.mp h with ⟨left, hframe, hmissing⟩ | ⟨rest, harrived, hmore⟩
  · rcases cut_of_frame_eq_append hlength hframe with ⟨harrived, hleft, -⟩ | ⟨hleft, hcut⟩
    · refine .inl ⟨[], by rw [harrived, List.append_nil], ?_⟩
      rw [hmissing, hleft]
      rfl
    · refine .inr ⟨fun hnone => ?_, ?_⟩
      · rw [hmissing] at hnone
        exact hleft (List.append_eq_nil_iff.mp hnone).1
      · have hfront := front?_rest arrived
        rwa [hcut] at hfront
  · exact .inl ⟨rest, harrived, hmore.symm⟩

namespace Client

variable {client : Client}

theorem take_of_le {count : Nat} (h : count ≤ client.channel.incoming.length) :
    take count client = .ok (client.channel.incoming.take count)
      { client with channel :=
          { client.channel with incoming := client.channel.incoming.drop count } } := by
  simp only [take, Channel.read, if_pos h]

/-- A read that does not get all its bytes uses up what there is. -/
theorem take_of_lt (client : Client) {count : Nat} (h : client.channel.incoming.length < count) :
    take count client = .error (shortage (if client.channel.ended then .ended else .late))
      { client with channel := { client.channel with incoming := [] } } := by
  simp only [take, Channel.read, if_neg (Nat.not_le.mpr h)]

/-- There is always room for a body. -/
theorem exists_prepare_eq_ok (client : Client) {length : Nat} (hlength : length ≤ maxPayload) :
    ∃ readBuffer : Buffer, prepare length client = .ok () { client with readBuffer } ∧
      readBuffer.filled = [] ∧ length ≤ readBuffer.room := by
  have hsmall : 2 * (client.readBuffer.reset.cursor + length) ≤ maxCapacity := by
    simp only [Buffer.cursor_reset, maxPayload, maxCapacity] at hlength ⊢
    omega
  obtain ⟨readBuffer, hreserve⟩ := Encoder.exists_reserve_eq_ok hsmall
  obtain ⟨hfilled, -, hroom, -⟩ := Encoder.of_reserve_eq_ok hreserve
  refine ⟨readBuffer, by simp only [prepare, hreserve], ?_, hroom⟩
  rw [hfilled, Buffer.filled_reset]

theorem decode_eq_ok (client : Client) {body : Bytes} {message : ServerMessage}
    (hfilled : client.readBuffer.filled = []) (hroom : body.length ≤ client.readBuffer.room)
    (hdecode : ServerMessage.decode body = .ok message) :
    ∃ readBuffer, decode body client = .ok message { client with readBuffer } := by
  have hbody : (client.readBuffer.fill body).filled = body := by
    rw [Buffer.filled_fill hroom, hfilled, List.nil_append]
  exact ⟨client.readBuffer.fill body, by simp only [decode, hbody, hdecode]⟩

/-- A whole frame is taken away, and its body decoded in a buffer with room for it. -/
theorem readMessage_eq_decode {body rest : Bytes}
    (hfront : FrameStream.front? client.channel.incoming = some (body, rest)) :
    ∃ readBuffer : Buffer, readBuffer.filled = [] ∧ body.length ≤ readBuffer.room ∧
      readMessage client = decode body
        { client with channel := { client.channel with incoming := rest }, readBuffer } := by
  have hlength := FrameStream.length_lt_of_front? hfront
  have hincoming := FrameStream.eq_frame_append hfront
  rw [FrameStream.frame, List.append_assoc] at hincoming
  have htwo : 2 ≤ client.channel.incoming.length := by
    rw [hincoming, List.length_append, BigEndian.length_digits]
    omega
  have hheader : client.channel.incoming.take 2 = BigEndian.digits 2 body.length := by
    rw [hincoming, List.take_left' (BigEndian.length_digits ..)]
  have hbehind : client.channel.incoming.drop 2 = body ++ rest := by
    rw [hincoming, List.drop_left' (BigEndian.length_digits ..)]
  obtain ⟨roomy, hprepare, hfilled, hroom⟩ := exists_prepare_eq_ok
    { client with channel := { client.channel with incoming := body ++ rest } }
    (BigEndian.lt_span_two_iff.mp hlength)
  have htake : take body.length
      { client with
        channel := { client.channel with incoming := body ++ rest }, readBuffer := roomy } =
      .ok body { client with
        channel := { client.channel with incoming := rest }, readBuffer := roomy } := by
    rw [take_of_le (by simp)]
    simp
  refine ⟨roomy, hfilled, hroom, (bind_of_eq_ok (take_of_le htwo)).trans ?_⟩
  rw [hheader, BigEndian.value_digits hlength, hbehind]
  exact (bind_of_eq_ok hprepare).trans (bind_of_eq_ok htake)

/-- A whole frame with a message is read and taken away. -/
theorem readMessage_of_front? {body rest : Bytes} {message : ServerMessage}
    (hfront : FrameStream.front? client.channel.incoming = some (body, rest))
    (hdecode : ServerMessage.decode body = .ok message) :
    ∃ readBuffer, readMessage client = .ok message
      { client with channel := { client.channel with incoming := rest }, readBuffer } := by
  obtain ⟨roomy, hfilled, hroom, hread⟩ := readMessage_eq_decode hfront
  obtain ⟨readBuffer, hdecoded⟩ := decode_eq_ok { client with
    channel := { client.channel with incoming := rest }, readBuffer := roomy } hfilled hroom
    hdecode
  exact ⟨readBuffer, hread.trans hdecoded⟩

/-- A whole frame without a message is taken away too. -/
theorem readMessage_of_undecodable {body rest : Bytes} {e : WireError}
    (hfront : FrameStream.front? client.channel.incoming = some (body, rest))
    (hdecode : ServerMessage.decode body = .error e) :
    ∃ readBuffer, readMessage client = .error (.wire e)
      { client with channel := { client.channel with incoming := rest }, readBuffer } := by
  obtain ⟨roomy, hfilled, hroom, hread⟩ := readMessage_eq_decode hfront
  have hbody : (roomy.fill body).filled = body := by
    rw [Buffer.filled_fill hroom, hfilled, List.nil_append]
  exact ⟨roomy.fill body, hread.trans (by simp only [decode, hbody, hdecode])⟩

/-- Without a whole frame a read uses up what there is of one. -/
theorem readMessage_of_lacking (hfront : FrameStream.front? client.channel.incoming = none) :
    ∃ readBuffer, readMessage client =
      .error (shortage (if client.channel.ended then .ended else .late))
        { client with channel := { client.channel with incoming := [] }, readBuffer } := by
  by_cases htwo : 2 ≤ client.channel.incoming.length
  · refine Exists.imp (fun readBuffer h => (bind_of_eq_ok (take_of_le htwo)).trans h) ?_
    rcases hincoming : client.channel.incoming with _ | ⟨high, _ | ⟨low, bytes⟩⟩
    · simp [hincoming] at htwo
    · simp [hincoming] at htwo
    · rw [hincoming] at hfront
      have hshort : bytes.length < BigEndian.value [high, low] := by
        apply Nat.lt_of_not_le
        intro hlong
        simp [FrameStream.front?, FrameStream.splitOff?, hlong] at hfront
      have hsmall : BigEndian.value [high, low] ≤ maxPayload :=
        BigEndian.lt_span_two_iff.mp (BigEndian.value_lt [high, low])
      simp only [List.take_succ_cons, List.take_zero, List.drop_succ_cons, List.drop_zero]
      obtain ⟨roomy, hprepare, -, -⟩ := exists_prepare_eq_ok
        { client with channel := { client.channel with incoming := bytes } } hsmall
      have htake := take_of_lt { client with
        channel := { client.channel with incoming := bytes }, readBuffer := roomy } hshort
      exact ⟨roomy, (bind_of_eq_ok hprepare).trans (bind_of_eq_error htake)⟩
  · have htake := take_of_lt client (Nat.lt_of_not_le htwo)
    exact ⟨client.readBuffer, bind_of_eq_error htake⟩

/-- As long as no whole frame has arrived on a stream that goes on, it is too early to read. -/
theorem readMessage_of_front?_eq_none
    (hfront : FrameStream.front? client.channel.incoming = none)
    (hended : client.channel.ended = false) :
    ∃ after, readMessage client = .error (.connection .tryAgain) after := by
  obtain ⟨readBuffer, hread⟩ := readMessage_of_lacking hfront
  rw [hended] at hread
  exact ⟨_, hread⟩

theorem readReply_of_error {e : ClientError} {after : Client}
    (hread : readMessage client = .error e after) : readReply client = .error e after := by
  rw [readReply]
  split <;> simp_all

theorem readReply_of_front?_eq_none
    (hfront : FrameStream.front? client.channel.incoming = none)
    (hended : client.channel.ended = false) :
    ∃ after, readReply client = .error (.connection .tryAgain) after := by
  obtain ⟨after, hread⟩ := readMessage_of_front?_eq_none hfront hended
  exact ⟨after, readReply_of_error hread⟩

theorem readReply_of_reply {reply : Reply} {after : Client}
    (hread : readMessage client = .ok (.reply reply) after) :
    readReply client = .ok reply after := by
  rw [readReply]
  split <;> simp_all

theorem readReply_of_event {event : Event} {after : Client}
    (hread : readMessage client = .ok (.event event) after) :
    readReply client = readReply { after with pending := after.pending ++ [event] } := by
  rw [readReply]
  split <;> simp_all

/-- The message at the front is read as soon as its whole frame has arrived. -/
theorem readMessage_of_joined {message : ServerMessage} {payload more missing : Bytes}
    (hpayload : message.payload? = some payload)
    (harrived : client.channel.incoming ++ missing = FrameStream.frame payload ++ more) :
    (∃ rest readBuffer, readMessage client = .ok message.normal
        { client with channel := { client.channel with incoming := rest }, readBuffer } ∧
      rest ++ missing = more) ∨
    (missing ≠ [] ∧ FrameStream.front? client.channel.incoming = none) := by
  have hlength := Frame.length_payload_lt hpayload
  rcases FrameStream.front?_of_append_eq hlength harrived with ⟨rest, hincoming, hrest⟩ | hlate
  · have hfront : FrameStream.front? client.channel.incoming = some (payload, rest) := by
      rw [hincoming, FrameStream.front?_frame_append hlength]
    obtain ⟨readBuffer, hread⟩ :=
      readMessage_of_front? hfront (ServerMessage.decode_payload hpayload)
    exact .inl ⟨rest, readBuffer, hread, hrest⟩
  · exact .inr hlate

/-- While only events come, the wait for a reply is not over. -/
theorem readReply_of_events {events : List Event} {payloads : List Bytes} {missing : Bytes}
    (hpayloads : (events.map ServerMessage.event).map ServerMessage.payload? = payloads.map some)
    (harrived : client.channel.incoming ++ missing = FrameStream.joined payloads)
    (hended : client.channel.ended = false) :
    ∃ after, readReply client = .error (.connection .tryAgain) after := by
  induction events generalizing client payloads with
  | nil =>
    obtain rfl : payloads = [] := by simpa using hpayloads.symm
    obtain ⟨hnone, -⟩ := List.append_eq_nil_iff.mp harrived
    exact readReply_of_front?_eq_none (by rw [hnone]; rfl) hended
  | cons event events ih =>
    obtain ⟨payload, others, rfl, hpayload, hothers⟩ := List.map_eq_cons_iff.mp hpayloads.symm
    rcases readMessage_of_joined hpayload.symm harrived with
      ⟨rest, readBuffer, hread, hrest⟩ | ⟨-, hfront⟩
    · rw [readReply_of_event hread]
      exact ih hothers.symm hrest hended
    · exact readReply_of_front?_eq_none hfront hended

/-- When a reply is behind some events, the wait ends with it as soon as all of it has arrived. The
events are queued, and what comes behind the reply is left where it is. -/
theorem readReply_of_joined {events : List Event} {reply : Reply} {later : List ServerMessage}
    {payloads : List Bytes} {missing : Bytes}
    (hpayloads : (events.map ServerMessage.event ++ .reply reply :: later).map
      ServerMessage.payload? = payloads.map some)
    (harrived : client.channel.incoming ++ missing = FrameStream.joined payloads)
    (hended : client.channel.ended = false) :
    (missing ≠ [] ∧ ∃ after, readReply client = .error (.connection .tryAgain) after) ∨
      ∃ after incoming others, readReply client = .ok reply.normal after ∧
        after.channel = { client.channel with incoming } ∧
        after.pending = client.pending ++ events ∧
        later.map ServerMessage.payload? = others.map some ∧
        incoming ++ missing = FrameStream.joined others := by
  induction events generalizing client payloads with
  | nil =>
    obtain ⟨payload, others, rfl, hpayload, hothers⟩ := List.map_eq_cons_iff.mp hpayloads.symm
    rcases readMessage_of_joined hpayload.symm harrived with
      ⟨rest, readBuffer, hread, hrest⟩ | ⟨hmissing, hfront⟩
    · exact .inr ⟨_, rest, others, readReply_of_reply hread, rfl, (List.append_nil _).symm,
        hothers.symm, hrest⟩
    · exact .inl ⟨hmissing, readReply_of_front?_eq_none hfront hended⟩
  | cons event events ih =>
    obtain ⟨payload, others, rfl, hpayload, hothers⟩ := List.map_eq_cons_iff.mp hpayloads.symm
    rcases readMessage_of_joined hpayload.symm harrived with
      ⟨rest, readBuffer, hread, hrest⟩ | ⟨hmissing, hfront⟩
    · rw [readReply_of_event hread]
      refine Or.imp_right (fun h => ?_) (ih hothers.symm hrest hended)
      obtain ⟨after, incoming, behind, hreply, hchannel, hpending, hbehind, hleft⟩ := h
      refine ⟨after, incoming, behind, hreply, hchannel, ?_, hbehind, hleft⟩
      rw [hpending, List.append_assoc]
      rfl
    · exact .inl ⟨hmissing, readReply_of_front?_eq_none hfront hended⟩

end Client

end MeshControl
