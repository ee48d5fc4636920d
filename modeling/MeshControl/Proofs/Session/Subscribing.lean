import MeshControl.Proofs.Session.Standing

/-!
What a client takes first when it has subscribed. The server pushes the current value of the kind
right behind its acknowledgement, so that nothing else comes between the two. But the client hands
out what it has queued before, be it from an earlier subscription or from the wait for this
acknowledgement. So the next event is the value at the acknowledgement only if the queue is empty,
and the first of the queue otherwise (`Session.first_event_after_subscribing`).
-/

namespace MeshControl

/-- A request of the type of a subscription is that subscription. -/
theorem Request.eq_subscribe_of_type_eq {request : Request} {kind : EventKind}
    (h : request.type = (Request.subscribe kind).type) : request = .subscribe kind := by
  cases request with
  | subscribe other => cases other <;> cases kind <;> first | rfl | cases h
  | _ => cases kind <;> cases h

namespace Client

variable {client after : Client} {event : Event}

/-- An event that was queued is handed out before anything is read. -/
theorem nextEvent_of_pending {others : List Event} (h : client.pending = event :: others) :
    nextEvent client = .ok event { client with pending := others } := by
  simp only [nextEvent, h]

theorem nextEvent_of_nil (h : client.pending = []) : nextEvent client = readEvent client := by
  simp only [nextEvent, h]

/-- An event that was not queued comes off the first frame. -/
theorem exists_front_of_nextEvent {underWay : Bytes} {left : List Bytes}
    (hshort : ∀ body ∈ left, body.length < BigEndian.span 2)
    (hfaces : client.Faces underWay left) (hnone : client.pending = [])
    (htake : nextEvent client = .ok event after) :
    ∃ body rest, left = body :: rest ∧ ServerMessage.decode body = .ok (.event event) := by
  rw [nextEvent_of_nil hnone, readEvent] at htake
  rcases readMessage_cases hshort hfaces with
    ⟨body, rest, next, rfl, -, -, ⟨message, hdecode, hread⟩ | ⟨e, -, hread⟩⟩ | ⟨e, next, hread, -⟩
  · rw [hread] at htake
    cases message with
    | reply reply => cases htake
    | event other =>
      cases htake
      exact ⟨body, rest, rfl, hdecode⟩
  · rw [hread] at htake
    cases htake
  · rw [hread] at htake
    cases htake

/-- An event whose frame has arrived first is taken. -/
theorem exists_nextEvent_eq_ok {body more : Bytes} (hnone : client.pending = [])
    (hlength : body.length < BigEndian.span 2)
    (hincoming : client.channel.incoming = FrameStream.frame body ++ more)
    (hdecode : ServerMessage.decode body = .ok (.event event)) :
    ∃ after, nextEvent client = .ok event after := by
  have hfront : FrameStream.front? client.channel.incoming = some (body, more) := by
    rw [hincoming, FrameStream.front?_frame_append hlength]
  obtain ⟨readBuffer, hread⟩ := readMessage_of_front? hfront hdecode
  rw [nextEvent_of_nil hnone, readEvent, hread]
  exact ⟨_, rfl⟩

/-- A call that has succeeded has read a reply, and what is left before the client are the frames
behind it. -/
theorem exists_reply_of_settleCall {request : Request} {value : Option String} {underWay : Bytes}
    {left : List Bytes} (hshort : ∀ body ∈ left, body.length < BigEndian.span 2)
    (hfaces : client.Faces underWay left)
    (hsettle : settleCall request client = .ok value after) :
    ∃ skipped body rest reply, left = skipped ++ body :: rest ∧ repliesIn skipped = 0 ∧
      ServerMessage.decode body = .ok (.reply reply) ∧
      reply.requestCode = request.type.code ∧ after.Faces underWay rest := by
  have hgive : settleCall request client = give (.ok value) after := hsettle
  rcases readReply_cases hshort hfaces with
    ⟨skipped, body, rest, reply, ended, rfl, hskipped, hdecode, hread, hrest⟩ |
      ⟨passed, rest, e, ended, rfl, hpassed, hread, hmiss, -⟩
  · rw [settleCall_of_readReply hread] at hgive
    obtain ⟨hjudge, rfl⟩ := give_inj hgive
    exact ⟨skipped, body, rest, reply, rfl, hskipped, hdecode,
      requestCode_of_judge (.inl ⟨value, hjudge⟩), hrest⟩
  · rw [settleCall_of_error hread] at hsettle
    cases hsettle

end Client

namespace Session

/-- Behind the back of a client nothing gets in front of what it has before it. -/
theorem Brings.exists_faces {β : Type} {early late : Session β} {lost lostLater : Bytes}
    {passed rest : List Bytes} (h : early.Brings late lost lostLater)
    (hletters : early.dialogue.letters = passed ++ rest)
    (hfaces : early.dialogue.client.Faces (early.dialogue.underWay ++ lost) rest) :
    ∃ bodies, late.dialogue.letters = passed ++ (rest ++ bodies) ∧
      late.dialogue.client.Faces (late.dialogue.underWay ++ lostLater) (rest ++ bodies) ∧
      (early.isLive = false → bodies = []) := by
  obtain ⟨bodies, hmore, hcoming, hsilent⟩ := h.grows
  refine ⟨bodies, by rw [hmore, hletters, List.append_assoc], ?_, hsilent⟩
  rw [Client.Faces] at hfaces ⊢
  rw [coming, coming, List.append_assoc, List.append_assoc _ _ lost, hfaces,
    ← FrameStream.joined_append] at hcoming
  exact hcoming

variable {β : Type} [Backend β] {session early late : Session β} {handled : List (Request × β)}
  {waiting : List Request} {lost lostLater : Bytes} {kind : EventKind} {after : Client}

/-- What stands before a client whose subscription was acknowledged with a backend: the current
value of that backend, or nothing and no more to come. -/
def Acknowledged (rest : List Bytes) (backend : β) (kind : EventKind) (goesOn : Bool) : Prop :=
  (∃ payload others, rest = payload :: others ∧
    (ServerMessage.event (Backend.currentEvent backend kind)).payload? = some payload) ∨
  (rest = [] ∧ goesOn = false)

/-- A subscription that succeeds has read the acknowledgement of one to the same kind. -/
theorem Standing.acknowledged (h : session.Standing handled waiting lost)
    (hunbroken : session.dialogue.broken = false)
    (hawaiting : session.dialogue.awaiting = some (.subscribe kind))
    (hsettle : Client.settleCall (.subscribe kind) session.dialogue.client = .ok none after) :
    ∃ earlier turn backend passed rest,
      session.dialogue.asked = earlier ++ [.subscribe kind] ∧
      session.dialogue.asked[turn]? = some (.subscribe kind) ∧
      session.consulted[turn]? = some backend ∧
      turn + session.dialogue.unanswered = earlier.length + session.dialogue.stray ∧
      session.dialogue.letters = passed ++ rest ∧
      after.Faces (session.dialogue.underWay ++ lost) rest ∧
      Acknowledged rest backend kind session.isLive := by
  obtain ⟨earlier, hasked⟩ := h.kept.last _ hawaiting
  obtain ⟨read, left, hletters, hfaces, hcount⟩ := h.kept.aligned hunbroken
  obtain ⟨skipped, body, rest, reply, rfl, hskipped, hdecode, hcode, hrest⟩ :=
    Client.exists_reply_of_settleCall (h.kept.short_left hletters) hfaces hsettle
  have hused : session.dialogue.letters = (read ++ skipped) ++ body :: rest :=
    hletters.trans (List.append_assoc ..).symm
  obtain ⟨request, backend, hindex, hreply, hbehind⟩ := h.account.reply hused hdecode
  have htype : request.type = (Request.subscribe kind).type := by
    rw [hreply, Reply.requestCode_normal, Backend.requestCode_replyTo] at hcode
    exact MessageType.code_injective hcode
  obtain rfl := Request.eq_subscribe_of_type_eq htype
  refine ⟨earlier, repliesIn (read ++ skipped), backend, read ++ skipped ++ [body], rest, hasked,
    ?_, ?_, ?_, ?_, hrest, hbehind kind rfl⟩
  · have hfirst :
        (handled.map Prod.fst)[repliesIn (read ++ skipped)]? = some (.subscribe kind) := by
      rw [List.getElem?_map, hindex]
      rfl
    obtain ⟨hbound, -⟩ := List.getElem?_eq_some_iff.mp hfirst
    rw [h.asked_eq, List.getElem?_append_left hbound, hfirst]
  · rw [h.consulted_eq, List.getElem?_map, hindex]
    rfl
  · have hlength := congrArg List.length hasked
    have hongoing : (session.dialogue.lacking lost).ongoing = 1 := by
      rw [Dialogue.ongoing, Dialogue.awaiting_lacking, hawaiting, Option.elim_some]
    rw [hongoing] at hcount
    simp only [Dialogue.lacking, List.length_append, List.length_singleton] at hcount hlength
    rw [repliesIn_append, hskipped]
    omega
  · rw [hused, List.append_assoc _ [body], List.singleton_append]

/-- Whatever happens meanwhile, a client whose queue is empty takes no other event than the value
with which its subscription was acknowledged. -/
theorem Standing.first_event (h : late.Standing handled waiting lostLater)
    (hbrings : early.Brings late lost lostLater) {passed rest : List Bytes} {backend : β}
    (hletters : early.dialogue.letters = passed ++ rest)
    (hfaces : early.dialogue.client.Faces (early.dialogue.underWay ++ lost) rest)
    (hacknowledged : Acknowledged rest backend kind early.isLive)
    (hnone : early.dialogue.client.pending = []) {event : Event}
    (htake : Client.nextEvent late.dialogue.client = .ok event after) :
    event = Backend.currentEvent backend kind := by
  obtain ⟨bodies, hmore, hlater, hsilent⟩ := hbrings.exists_faces hletters hfaces
  have hshort : ∀ body ∈ rest ++ bodies, body.length < BigEndian.span 2 := fun body hbody =>
    h.account.short body (hmore ▸ List.mem_append_right passed hbody)
  obtain ⟨body, others, hfront, hdecode⟩ :=
    Client.exists_front_of_nextEvent hshort hlater (hbrings.pending_eq.trans hnone) htake
  rcases hacknowledged with ⟨payload, more, rfl, hpayload⟩ | ⟨rfl, hdead⟩
  · obtain ⟨rfl, -⟩ := List.cons.inj hfront
    rw [ServerMessage.decode_payload hpayload] at hdecode
    cases hdecode
    rfl
  · rw [hsilent hdead] at hfront
    cases hfront

/-- A client whose connection was open takes it as soon as nothing is under way any more. -/
theorem Standing.exists_first_event (h : early.Standing handled waiting lost)
    (hbrings : early.Brings late lost lostLater) {passed rest : List Bytes} {backend : β}
    (hletters : early.dialogue.letters = passed ++ rest)
    (hfaces : early.dialogue.client.Faces (early.dialogue.underWay ++ lost) rest)
    (hacknowledged : Acknowledged rest backend kind early.isLive)
    (hnone : early.dialogue.client.pending = []) (hlive : early.isLive = true)
    (harrived : late.dialogue.underWay = []) :
    ∃ event after, Client.nextEvent late.dialogue.client = .ok event after := by
  rcases hacknowledged with ⟨payload, others, rfl, hpayload⟩ | ⟨-, hdead⟩
  · have hlength := Frame.length_payload_lt hpayload
    obtain ⟨more, hmore⟩ := hbrings.arrives
    rw [Client.Faces, h.whole hlive, List.append_nil, FrameStream.joined] at hfaces
    rw [coming, coming, hfaces, harrived, List.append_nil, List.append_assoc] at hmore
    obtain ⟨final, htake⟩ := Client.exists_nextEvent_eq_ok (hbrings.pending_eq.trans hnone)
      hlength hmore.symm (ServerMessage.decode_payload hpayload)
    exact ⟨_, final, htake⟩
  · rw [hdead] at hlive
    cases hlive

/-- The first event after a subscription is the first in the queue, or the current value if there is
none. For every server, whatever its peers and the client have done before, a call of `subscribe`
that succeeds while no read has broken off inside of a frame has read the acknowledgement of a
subscription to the same kind, which is its own exactly if as many replies have been read in the
place of events as calls have failed without one. Whatever happens then behind the client's back,
the next event that it takes is the first of those that it has queued by the end of the call, of
whatever kind, and if there are none the value of the kind in the backend at the acknowledgement.
It does get one if one is queued, and also if the connection was open at the end of the call and all
that was written to the client has arrived. -/
theorem first_event_after_subscribing (hreached : session.Reached)
    (hunbroken : session.dialogue.broken = false)
    (hawaiting : session.dialogue.awaiting = some (.subscribe kind))
    (hsettle : Client.settle (.subscribe kind) session.dialogue.client = .ok () after) :
    (session.act .settle).dialogue.client = after ∧
    ∃ earlier turn backend,
      session.dialogue.asked = earlier ++ [.subscribe kind] ∧
      session.dialogue.asked[turn]? = some (.subscribe kind) ∧
      session.consulted[turn]? = some backend ∧
      turn + session.dialogue.unanswered = earlier.length + session.dialogue.stray ∧
      ∀ actions : List (SessionAction β), (∀ action ∈ actions, action.isQuiet = true) →
        let later := actions.foldl act (session.act .settle)
        (∀ event final, Client.nextEvent later.dialogue.client = .ok event final →
          event = after.pending.headD (Backend.currentEvent backend kind)) ∧
        (after.pending ≠ [] ∨ session.isLive = true ∧ later.dialogue.underWay = [] →
          ∃ event final, Client.nextEvent later.dialogue.client = .ok event final) := by
  obtain ⟨handled, waiting, lost, hstanding⟩ := hreached.standing
  have hcall : Client.settleCall (.subscribe kind) session.dialogue.client = .ok none after :=
    bind_of_eq_ok hsettle
  have hsettled : (session.act .settle).dialogue = { session.dialogue with
      client := after, awaiting := none } := by
    simp only [act, perform, Dialogue.act, hawaiting, Option.elim_some, Dialogue.settle, hcall]
  have hclient : (session.act .settle).dialogue.client = after := by rw [hsettled]
  obtain ⟨earlier, turn, backend, passed, rest, hasked, hturn, hconsulted, hcount, hletters, hfaces,
    hacknowledged⟩ := hstanding.acknowledged hunbroken hawaiting hcall
  refine ⟨hclient, earlier, turn, backend, hasked, hturn, hconsulted, hcount, ?_⟩
  intro actions hquiet later
  have hearly : (session.act .settle).Standing handled waiting lost := hstanding.perform (.inl rfl)
  obtain ⟨handledLater, waitingLater, lostLater, hlate, hbrings⟩ := hearly.foldl hquiet
  have hlettersEarly : (session.act .settle).dialogue.letters = passed ++ rest := by
    rw [hsettled]
    exact hletters
  have hfacesEarly : (session.act .settle).dialogue.client.Faces
      ((session.act .settle).dialogue.underWay ++ lost) rest := by
    rw [hsettled]
    exact hfaces
  cases hpending : after.pending with
  | cons first others =>
    have htake := Client.nextEvent_of_pending
      ((hbrings.pending_eq.trans (congrArg Client.pending hclient)).trans hpending)
    refine ⟨fun event final hevent => ?_, fun _ => ⟨_, _, htake⟩⟩
    rw [htake] at hevent
    cases hevent
    rfl
  | nil =>
    have hnone : (session.act .settle).dialogue.client.pending = [] := by
      rw [hclient, hpending]
    refine ⟨fun event final htake => ?_, fun hcomes => ?_⟩
    · exact hlate.first_event hbrings hlettersEarly hfacesEarly hacknowledged hnone htake
    · obtain ⟨hlive, harrived⟩ := hcomes.resolve_left fun hqueued => hqueued rfl
      exact hearly.exists_first_event hbrings hlettersEarly hfacesEarly hacknowledged hnone hlive
        harrived

/-- A server in memory with one client. -/
def accepted : Session MemoryBackend where
  server := (Server.accept { config := {}, backend := {} } {} {} 0).2
  id := 1

/-- The client subscribes to the state and then, before it takes an event, to the role. -/
def subscribedTwice : Session MemoryBackend :=
  [.ask (.subscribe .state), .carry 4, .attend (.serve 1 0), .bring 21, .settle,
    .ask (.subscribe .role), .carry 4, .attend (.serve 1 0), .bring 22].foldl act accepted

theorem reached_subscribedTwice : subscribedTwice.Reached := by
  have haccept : Server.accept { config := {}, backend := {} } {} { upcoming := [] } 0 =
      (.accepted 1, accepted.server) := rfl
  have hstart : accepted.Reached := .start (.start {} {}) haccept
  exact hstart.foldl _

theorem first_event_after_subscribing_twice : subscribedTwice.Reached ∧
    subscribedTwice.dialogue.broken = false ∧
    subscribedTwice.dialogue.awaiting = some (.subscribe .role) ∧
    ∃ after event final,
      Client.settle (.subscribe .role) subscribedTwice.dialogue.client = .ok () after ∧
      Client.nextEvent after = .ok event final ∧ event.kind = .state := by
  have hunbroken : subscribedTwice.dialogue.broken = false := by decide +kernel
  have hawaiting : subscribedTwice.dialogue.awaiting = some (.subscribe .role) := by
    decide +kernel
  have hqueue : (match Client.settle (.subscribe .role) subscribedTwice.dialogue.client with
      | .ok () after => some after.pending
      | .error _ _ => none) = some [.state .unknown] := by decide +kernel
  cases hsettle : Client.settle (.subscribe .role) subscribedTwice.dialogue.client with
  | error e after =>
    rw [hsettle] at hqueue
    cases hqueue
  | ok value after =>
    rw [hsettle] at hqueue
    have hpending : after.pending = [.state .unknown] := Option.some.inj hqueue
    obtain ⟨hclient, earlier, turn, backend, -, -, -, -, hfirst⟩ :=
      first_event_after_subscribing reached_subscribedTwice hunbroken hawaiting hsettle
    obtain ⟨hvalue, hsome⟩ := hfirst [] (by simp)
    rw [List.foldl_nil, hclient] at hvalue hsome
    obtain ⟨event, final, htake⟩ := hsome (.inl (by simp [hpending]))
    refine ⟨reached_subscribedTwice, hunbroken, hawaiting, after, event, final, rfl, htake, ?_⟩
    rw [hvalue event final htake, hpending]
    rfl

end Session

end MeshControl
