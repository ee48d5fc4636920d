import MeshControl.Client.Events
import MeshControl.Proofs.Client.Calling
import MeshControl.Proofs.Connection.Chunking

/-!
What a client's reads come to against the frames that are before it, whole or in part. Waiting for a
reply passes over events up to the first reply, or fails on the way: at a frame that holds no
message, which it takes away, or where too little has arrived. Whatever it comes to, what is before
the client afterwards are the frames that it has not passed, unless it broke off inside of one
(`Client.readReply_cases`, `Client.nextEvent_cases`).
-/

namespace MeshControl

/-- A frame that is found at the front of joined frames is the first of them. -/
theorem FrameStream.joined_of_front? {bytes body rest more : Bytes} {left : List Bytes}
    (hfront : front? bytes = some (body, rest)) (hjoined : bytes ++ more = joined left)
    (hshort : ∀ body ∈ left, body.length < BigEndian.span 2) :
    ∃ others, left = body :: others ∧ rest ++ more = joined others := by
  have hfound : front? (frame body ++ (rest ++ more)) = some (body, rest ++ more) :=
    front?_frame_append (length_lt_of_front? hfront)
  rw [← List.append_assoc, ← eq_frame_append hfront, hjoined] at hfound
  cases left with
  | nil => cases hfound
  | cons first others =>
    rw [joined, front?_frame_append (hshort first (List.mem_cons_self ..)), Option.some.injEq,
      Prod.mk.injEq] at hfound
    obtain ⟨rfl, hrest⟩ := hfound
    exact ⟨others, rfl, hrest.symm⟩

/-- Whether a body is that of a reply. -/
def ServerMessage.isReply (body : Bytes) : Bool :=
  match decode body with
  | .ok (.reply _) => true
  | _ => false

/-- The number of replies among bodies. -/
def repliesIn (bodies : List Bytes) : Nat := bodies.countP ServerMessage.isReply

theorem repliesIn_append (first second : List Bytes) :
    repliesIn (first ++ second) = repliesIn first + repliesIn second :=
  List.countP_append

theorem repliesIn_of_reply {body : Bytes} {reply : Reply}
    (hdecode : ServerMessage.decode body = .ok (.reply reply)) : repliesIn [body] = 1 := by
  simp [repliesIn, ServerMessage.isReply, hdecode]

theorem repliesIn_of_event {body : Bytes} {event : Event}
    (hdecode : ServerMessage.decode body = .ok (.event event)) : repliesIn [body] = 0 := by
  simp [repliesIn, ServerMessage.isReply, hdecode]

theorem repliesIn_of_undecodable {body : Bytes} {e : WireError}
    (hdecode : ServerMessage.decode body = .error e) : repliesIn [body] = 0 := by
  simp [repliesIn, ServerMessage.isReply, hdecode]

namespace ClientError

/-- Whether a failure means that too few bytes came. -/
def isShortage : ClientError → Bool
  | connection _ | disconnected => true
  | _ => false

/-- Whether a failure means that no reply was read. -/
def isMiss : ClientError → Bool
  | wire _ => true
  | e => e.isShortage

end ClientError

namespace Client

theorem isShortage_shortage (reason : Shortage) : (shortage reason).isShortage = true := by
  cases reason <;> rfl

/-- Whether a failure to read loses the first part of a frame. -/
def breaksOff (client : Client) (e : ClientError) : Bool :=
  e.isShortage && !(FrameStream.cut client.channel.incoming).rest.isEmpty

theorem breaksOff_eq_false (client : Client) {e : ClientError} (h : e.isShortage = false) :
    client.breaksOff e = false := by
  rw [breaksOff, h, Bool.false_and]

/-- What has arrived and what is under way are the frames of some bodies. -/
def Faces (client : Client) (underWay : Bytes) (left : List Bytes) : Prop :=
  client.channel.incoming ++ underWay = FrameStream.joined left

variable {client : Client} {underWay : Bytes} {left : List Bytes}

theorem Faces.of_incoming_eq {after : Client} (h : client.Faces underWay left)
    (hincoming : after.channel.incoming = client.channel.incoming) : after.Faces underWay left := by
  rw [Faces, hincoming]
  exact h

/-- A frame that is written is under way behind the others. -/
theorem Faces.write (h : client.Faces underWay left) (body : Bytes) :
    client.Faces (underWay ++ FrameStream.frame body) (left ++ [body]) := by
  rw [Faces] at h ⊢
  rw [← List.append_assoc, h, FrameStream.joined_append]
  simp only [FrameStream.joined, List.append_nil]

/-- The first bytes under way arrive. -/
theorem Faces.deliver (h : client.Faces underWay left) (hgoes : ¬client.channel.ended = true)
    (count : Nat) :
    Faces { client with channel := client.channel.deliver (underWay.take count) }
      (underWay.drop count) left := by
  rw [Faces] at h ⊢
  rw [Channel.deliver, if_neg hgoes, List.append_assoc, List.take_append_drop, h]

/-- Sending a request leaves alone what has arrived, whether it succeeds or fails. -/
theorem send_cases (request : Request) (client : Client) :
    (∃ after, send request client = .ok () after ∧
        after.channel.incoming = client.channel.incoming) ∨
      ∃ e after, send request client = .error e after ∧
        after.channel.incoming = client.channel.incoming := by
  cases hencode : request.encode client.writeBuffer with
  | error e writeBuffer => exact .inr ⟨_, _, send_of_encode_eq_error hencode, rfl⟩
  | ok bytes writeBuffer =>
    cases hheard : client.channel.isHeard with
    | true => exact .inl ⟨_, send_of_isHeard hencode hheard, rfl⟩
    | false => exact .inr ⟨_, _, send_of_unheard hencode hheard, rfl⟩

/-- A read takes the first frame away, whether it holds a message or not; or it falls short, and
loses what has come of the frame. -/
theorem readMessage_cases (hshort : ∀ body ∈ left, body.length < BigEndian.span 2)
    (hfaces : client.Faces underWay left) :
    (∃ body rest after, left = body :: rest ∧ after.Faces underWay rest ∧
      (∀ e, after.breaksOff e = client.breaksOff e) ∧
      ((∃ message, ServerMessage.decode body = .ok message ∧
          readMessage client = .ok message after) ∨
        ∃ e, ServerMessage.decode body = .error e ∧
          readMessage client = .error (.wire e) after)) ∨
    ∃ e after, readMessage client = .error e after ∧ e.isShortage = true ∧
      (client.breaksOff e = false → after.Faces underWay left) := by
  cases hfront : FrameStream.front? client.channel.incoming with
  | none =>
    obtain ⟨readBuffer, hread⟩ := readMessage_of_lacking hfront
    -- What has come of the frame is used up, and nothing is lost only if that is nothing.
    refine .inr ⟨_, _, hread, isShortage_shortage _, fun hwhole => ?_⟩
    rw [breaksOff, isShortage_shortage, FrameStream.cut_of_none hfront, Bool.true_and,
      Bool.not_eq_false', List.isEmpty_iff] at hwhole
    have hnone : client.channel.incoming = [] := hwhole
    rw [Faces, hnone] at hfaces
    exact hfaces
  | some found =>
    obtain ⟨body, rest⟩ := found
    obtain ⟨others, rfl, hrest⟩ := FrameStream.joined_of_front? hfront hfaces hshort
    have hcut (e : ClientError) {after : Client} (hincoming : after.channel.incoming = rest) :
        after.breaksOff e = client.breaksOff e := by
      rw [breaksOff, breaksOff, hincoming, FrameStream.cut_of_some hfront]
    left
    cases hdecode : ServerMessage.decode body with
    | ok message =>
      obtain ⟨readBuffer, hread⟩ := readMessage_of_front? hfront hdecode
      refine ⟨body, others, _, rfl, ?_, fun e => ?_, .inl ⟨message, hdecode, hread⟩⟩
      · exact hrest
      · exact hcut e rfl
    | error e =>
      obtain ⟨readBuffer, hread⟩ := readMessage_of_undecodable hfront hdecode
      refine ⟨body, others, _, rfl, ?_, fun e => ?_, .inr ⟨e, hdecode, hread⟩⟩
      · exact hrest
      · exact hcut e rfl

theorem isMiss_of_isShortage {e : ClientError} (h : e.isShortage = true) : e.isMiss = true := by
  cases e <;> first | rfl | exact h

/-- A wait ends with the first reply before the client, or it fails before it has come to one. -/
theorem readReply_cases (hshort : ∀ body ∈ left, body.length < BigEndian.span 2)
    (hfaces : client.Faces underWay left) :
    (∃ skipped body rest reply after, left = skipped ++ body :: rest ∧ repliesIn skipped = 0 ∧
      ServerMessage.decode body = .ok (.reply reply) ∧ readReply client = .ok reply after ∧
      after.Faces underWay rest) ∨
    ∃ passed rest e after, left = passed ++ rest ∧ repliesIn passed = 0 ∧
      readReply client = .error e after ∧ e.isMiss = true ∧
      (client.breaksOff e = false → after.Faces underWay rest) := by
  induction left generalizing client with
  | nil =>
    rcases readMessage_cases hshort hfaces with
      ⟨_, _, _, hleft, -⟩ | ⟨e, after, hread, hshortage, hkept⟩
    · cases hleft
    · exact .inr ⟨[], [], e, after, rfl, rfl, readReply_of_error hread,
        isMiss_of_isShortage hshortage, hkept⟩
  | cons first others ih =>
    rcases readMessage_cases hshort hfaces with
      ⟨body, rest, after, hleft, hrest, hbreaks, hread⟩ | ⟨e, after, hread, hshortage, hkept⟩
    · obtain ⟨rfl, rfl⟩ := List.cons.inj hleft
      rcases hread with ⟨message, hdecode, hread⟩ | ⟨e, hdecode, hread⟩
      · cases message with
        | reply reply =>
          exact .inl ⟨[], _, _, reply, after, rfl, rfl, hdecode, readReply_of_reply hread, hrest⟩
        | event event =>
          have hothers : ∀ body ∈ others, body.length < BigEndian.span 2 := fun body hbody =>
            hshort body (List.mem_cons_of_mem _ hbody)
          have hnone := repliesIn_of_event hdecode
          rw [readReply_of_event hread]
          have hqueued : { after with pending := after.pending ++ [event] }.Faces underWay others :=
            hrest
          rcases ih hothers hqueued with
            ⟨skipped, body, rest, reply, ended, rfl, hskipped, hreply, hend, hbehind⟩ |
              ⟨passed, rest, e, ended, rfl, hpassed, hend, hmiss, hkept⟩
          · refine .inl ⟨first :: skipped, body, rest, reply, ended, rfl, ?_, hreply, hend, hbehind⟩
            rw [← List.singleton_append, repliesIn_append, hnone, hskipped]
          · refine .inr ⟨first :: passed, rest, e, ended, rfl, ?_, hend, hmiss, fun hwhole => ?_⟩
            · rw [← List.singleton_append, repliesIn_append, hnone, hpassed]
            · exact hkept ((hbreaks e).trans hwhole)
      · refine .inr ⟨[first], others, .wire e, after, rfl, repliesIn_of_undecodable hdecode,
          readReply_of_error hread, rfl, fun _ => hrest⟩
    · exact .inr ⟨[], _, e, after, rfl, rfl, readReply_of_error hread,
        isMiss_of_isShortage hshortage, hkept⟩

/-- Taking an event passes over a reply only if it fails with it. -/
theorem nextEvent_cases (hshort : ∀ body ∈ left, body.length < BigEndian.span 2)
    (hfaces : client.Faces underWay left) :
    ∃ passed rest, left = passed ++ rest ∧
      ((∃ event after, nextEvent client = .ok event after ∧ repliesIn passed = 0 ∧
          after.Faces underWay rest) ∨
        ∃ e after, nextEvent client = .error e after ∧
          repliesIn passed = (if e.isMiss then 0 else 1) ∧
          (client.breaksOff e = false → after.Faces underWay rest)) := by
  unfold nextEvent
  split
  · exact ⟨[], left, rfl, .inl ⟨_, _, rfl, rfl, hfaces⟩⟩
  · unfold readEvent
    rcases readMessage_cases hshort hfaces with
      ⟨body, rest, after, rfl, hrest, -, hread⟩ | ⟨e, after, hread, hshortage, hkept⟩
    · refine ⟨[body], rest, rfl, ?_⟩
      rcases hread with ⟨message, hdecode, hread⟩ | ⟨e, hdecode, hread⟩
      · rw [hread]
        cases message with
        | reply reply => exact .inr ⟨_, _, rfl, repliesIn_of_reply hdecode, fun _ => hrest⟩
        | event event => exact .inl ⟨_, _, rfl, repliesIn_of_event hdecode, hrest⟩
      · rw [hread]
        exact .inr ⟨_, _, rfl, repliesIn_of_undecodable hdecode, fun _ => hrest⟩
    · rw [hread]
      refine ⟨[], left, rfl, .inr ⟨_, _, rfl, ?_, hkept⟩⟩
      rw [isMiss_of_isShortage hshortage, if_pos rfl]
      rfl

/-- What a reply is judged to be is never that none was read. -/
theorem isMiss_of_judge {request : Request} {reply : Reply} {e : ClientError}
    (hjudge : judge request reply = .error e) : e.isMiss = false := by
  by_cases hrequest : request = .getTunnelName
  · subst hrequest
    cases reply with
    | response code status =>
      cases hjudge
      rfl
    | tunnelName code status name =>
      rw [judge] at hjudge
      split at hjudge
      · split at hjudge
        · cases name <;> cases hjudge
          rfl
        · cases hjudge
          rfl
      · cases hjudge
        rfl
  · cases reply with
    | response code status =>
      rw [judge_response hrequest, Status.result] at hjudge
      split at hjudge
      · split at hjudge <;> cases hjudge
        rfl
      · cases hjudge
        rfl
    | tunnelName code status name =>
      rw [judge_tunnelName hrequest] at hjudge
      cases hjudge
      rfl

/-- A call succeeds, or fails with a status, only by a reply that repeats the type code of its
request. -/
theorem requestCode_of_judge {request : Request} {reply : Reply}
    (hverdict : (∃ value, judge request reply = .ok value) ∨
      ∃ status, judge request reply = .error (.server status)) :
    reply.requestCode = request.type.code := by
  have hexpected : ∀ expected, judge request reply ≠ .error (.unexpectedReply expected reply) := by
    intro expected hjudge
    rcases hverdict with ⟨value, hvalue⟩ | ⟨status, hstatus⟩
    · rw [hvalue] at hjudge
      cases hjudge
    · rw [hstatus] at hjudge
      cases hjudge
  by_cases hrequest : request = .getTunnelName
  · subst hrequest
    cases reply with
    | response code status => exact absurd rfl (hexpected .tunnelNameResponse)
    | tunnelName code status name =>
      by_contra hcode
      exact hexpected .tunnelNameResponse (by rw [judge]; exact if_neg hcode)
  · cases reply with
    | response code status =>
      by_contra hcode
      exact hexpected .response ((judge_response hrequest code status).trans (if_neg hcode))
    | tunnelName code status name =>
      exact absurd (judge_tunnelName hrequest code status name) (hexpected .response)

end Client

end MeshControl
