import MeshControl.Client.Events
import MeshControl.Proofs.Client.Calling
import MeshControl.Proofs.Connection.Chunking

/-!
Events are handed out once each, in the order in which they arrive. A client takes whole frames off
its stream, and where a read falls short, what has come of a frame. Which of them a call takes is a
matter of what has arrived: everything up to the first frame that is no event, while a call that
takes an event from the queue takes nothing. In every run of a client against a server that writes
any frames, the events that were handed out and those that are queued are the events of the frames
that were taken (`Reception.handed_append_pending`).
-/

namespace MeshControl

/-- The event that a body spells, if it spells one. -/
def ServerMessage.eventIn? (body : Bytes) : Option Event :=
  match decode body with
  | .ok (.event value) => some value
  | _ => none

/-- What a client takes off its stream by one read of a message. -/
inductive Portion where
  | whole (body : Bytes)
  /-- What had come of a frame when its rest did not come. -/
  | torn (part : Bytes)

namespace Portion

def bytes : Portion → Bytes
  | whole body => FrameStream.frame body
  | torn part => part

def body? : Portion → Option Bytes
  | whole body => some body
  | torn _ => none

/-- The bodies of the whole frames among portions. -/
def bodies (portions : List Portion) : List Bytes := portions.filterMap body?

/-- The events that the whole frames among portions hold. -/
def events (portions : List Portion) : List Event :=
  (bodies portions).filterMap ServerMessage.eventIn?

/-- What a read that falls short takes: the part of a frame that has come, if any has. -/
def remnant : Bytes → List Portion
  | [] => []
  | byte :: bytes => [torn (byte :: bytes)]

/-- What a wait for a reply takes, where frames have arrived and part of another behind them. It
ends with the first frame that holds no event. -/
def awaited (part : Bytes) : List Bytes → List Portion
  | [] => remnant part
  | body :: bodies =>
    match ServerMessage.eventIn? body with
    | some _ => whole body :: awaited part bodies
    | none => [whole body]

/-- What a read of a single message takes. -/
def next (part : Bytes) : List Bytes → List Portion
  | [] => remnant part
  | body :: _ => [whole body]

theorem bodies_append (first second : List Portion) :
    bodies (first ++ second) = bodies first ++ bodies second :=
  List.filterMap_append

theorem events_append (first second : List Portion) :
    events (first ++ second) = events first ++ events second := by
  rw [events, bodies_append, List.filterMap_append]
  rfl

theorem events_remnant (part : Bytes) : events (remnant part) = [] := by
  cases part <;> rfl

theorem bytes_remnant (part : Bytes) : (remnant part).flatMap bytes = part := by
  cases part with
  | nil => rfl
  | cons byte rest => simp [remnant, bytes]

theorem events_whole {body : Bytes} {event : Event} (portions : List Portion)
    (h : ServerMessage.eventIn? body = some event) :
    events (whole body :: portions) = event :: events portions := by
  simp [events, bodies, body?, h]

theorem events_whole_of_eq_none {body : Bytes} (h : ServerMessage.eventIn? body = none) :
    events [whole body] = [] := by
  simp [events, bodies, body?, h]

/-- The bytes of whole portions are those of their frames. -/
theorem bytes_of_whole {portions : List Portion} (h : ∀ portion ∈ portions, portion.body? ≠ none) :
    portions.flatMap bytes = FrameStream.joined (bodies portions) := by
  induction portions with
  | nil => rfl
  | cons portion portions ih =>
    have hrest := ih fun other hother => h other (List.mem_cons_of_mem _ hother)
    cases portion with
    | whole body =>
      rw [List.flatMap_cons, hrest]
      rfl
    | torn part => exact absurd rfl (h (.torn part) (List.mem_cons_self ..))

end Portion

/-- Joined frames that begin with the frames of some bodies are those and the frames of others. -/
theorem FrameStream.joined_prefix {read letters : List Bytes} {behind : Bytes}
    (hread : ∀ body ∈ read, body.length < BigEndian.span 2)
    (hletters : ∀ body ∈ letters, body.length < BigEndian.span 2)
    (h : joined read ++ behind = joined letters) :
    ∃ left, letters = read ++ left ∧ behind = joined left := by
  induction read generalizing letters with
  | nil => exact ⟨letters, rfl, h⟩
  | cons body read ih =>
    rw [joined, List.append_assoc] at h
    have hfront : front? (frame body ++ (joined read ++ behind)) =
        some (body, joined read ++ behind) :=
      front?_frame_append (hread body (List.mem_cons_self ..))
    rw [h] at hfront
    cases letters with
    | nil => cases hfront
    | cons first others =>
      rw [joined, front?_frame_append (hletters first (List.mem_cons_self ..)),
        Option.some.injEq, Prod.mk.injEq] at hfront
      obtain ⟨rfl, hrest⟩ := hfront
      obtain ⟨left, rfl, hleft⟩ := ih
        (fun other hother => hread other (List.mem_cons_of_mem _ hother))
        (fun other hother => hletters other (List.mem_cons_of_mem _ hother)) hrest.symm
      exact ⟨left, rfl, hleft⟩

namespace Client

/-- The client that a call leaves, whether it succeeds or not. -/
def left {α : Type} : EStateM.Result ClientError Client α → Client
  | .ok _ client => client
  | .error _ client => client

/-- The event that a call gives, if it gives one. -/
def given : EStateM.Result ClientError Client Event → List Event
  | .ok event _ => [event]
  | .error _ _ => []

/-- A client takes portions off its stream and queues their events behind those that were queued. -/
structure Takes (before : Client) (portions : List Portion) (queued : List Event)
    (after : Client) : Prop where
  bytes_eq : portions.flatMap Portion.bytes ++ after.channel.incoming = before.channel.incoming
  short : ∀ body, Portion.whole body ∈ portions → body.length < BigEndian.span 2
  pending_eq : after.pending = before.pending ++ queued

variable {before middle after client : Client} {first second : List Portion}
  {early late queued : List Event} {body rest : Bytes}

theorem Takes.nothing (hincoming : after.channel.incoming = before.channel.incoming)
    (hpending : after.pending = before.pending) : before.Takes [] [] after where
  bytes_eq := hincoming
  short := by simp
  pending_eq := by rw [hpending, List.append_nil]

theorem Takes.trans (hfirst : before.Takes first early middle)
    (hsecond : middle.Takes second late after) :
    before.Takes (first ++ second) (early ++ late) after where
  bytes_eq := by
    rw [List.flatMap_append, List.append_assoc, hsecond.bytes_eq, hfirst.bytes_eq]
  short := by
    intro body hbody
    rcases List.mem_append.mp hbody with hearly | hlate
    · exact hfirst.short body hearly
    · exact hsecond.short body hlate
  pending_eq := by rw [hsecond.pending_eq, hfirst.pending_eq, List.append_assoc]

theorem Takes.whole (hfront : FrameStream.front? before.channel.incoming = some (body, rest))
    (hincoming : after.channel.incoming = rest)
    (hpending : after.pending = before.pending ++ queued) :
    before.Takes [.whole body] queued after where
  bytes_eq := by
    rw [hincoming, FrameStream.eq_frame_append hfront]
    simp [Portion.bytes]
  short := by
    intro other hother
    obtain rfl : other = body := by simpa using hother
    exact FrameStream.length_lt_of_front? hfront
  pending_eq := hpending

/-- A read that falls short uses up what has come. -/
theorem Takes.remnant (hincoming : after.channel.incoming = [])
    (hpending : after.pending = before.pending) :
    before.Takes (Portion.remnant before.channel.incoming) [] after where
  bytes_eq := by rw [hincoming, Portion.bytes_remnant, List.append_nil]
  short := by
    intro body hbody
    cases hbefore : before.channel.incoming <;> simp [hbefore, Portion.remnant] at hbody
  pending_eq := by rw [hpending, List.append_nil]

/-- What a wait for a reply would take of what has arrived. -/
def awaited (client : Client) : List Portion :=
  let stream := FrameStream.cut client.channel.incoming
  Portion.awaited stream.rest stream.bodies

/-- What a read of a message would take of what has arrived. -/
def next (client : Client) : List Portion :=
  let stream := FrameStream.cut client.channel.incoming
  Portion.next stream.rest stream.bodies

theorem awaited_of_front?_eq_none (hfront : FrameStream.front? client.channel.incoming = none) :
    client.awaited = Portion.remnant client.channel.incoming := by
  rw [awaited, FrameStream.cut_of_none hfront]
  rfl

theorem next_of_front?_eq_none (hfront : FrameStream.front? client.channel.incoming = none) :
    client.next = Portion.remnant client.channel.incoming := by
  rw [next, FrameStream.cut_of_none hfront]
  rfl

theorem next_of_front? (hfront : FrameStream.front? client.channel.incoming = some (body, rest)) :
    client.next = [.whole body] := by
  rw [next, FrameStream.cut_of_some hfront]
  rfl

/-- A frame at the front that holds no event ends the wait for a reply, and the client is left
behind it. -/
theorem takes_readReply_of_other
    (hfront : FrameStream.front? client.channel.incoming = some (body, rest))
    (hother : ServerMessage.eventIn? body = none) :
    client.Takes [.whole body] [] (left (readReply client)) := by
  cases hdecode : ServerMessage.decode body with
  | error e =>
    obtain ⟨readBuffer, hread⟩ := readMessage_of_undecodable hfront hdecode
    rw [readReply_of_error hread]
    exact .whole hfront rfl (List.append_nil _).symm
  | ok message =>
    obtain ⟨readBuffer, hread⟩ := readMessage_of_front? hfront hdecode
    cases message with
    | reply reply =>
      rw [readReply_of_reply hread]
      exact .whole hfront rfl (List.append_nil _).symm
    | event event => simp [ServerMessage.eventIn?, hdecode] at hother

/-- An event at the front is queued, and the wait for a reply goes on behind it. -/
theorem readReply_of_eventIn? {event : Event}
    (hfront : FrameStream.front? client.channel.incoming = some (body, rest))
    (hevent : ServerMessage.eventIn? body = some event) :
    ∃ readBuffer, readReply client = readReply { client with
      channel := { client.channel with incoming := rest }, readBuffer
      pending := client.pending ++ [event] } := by
  have hdecode : ServerMessage.decode body = .ok (.event event) := by
    unfold ServerMessage.eventIn? at hevent
    split at hevent
    · rename_i value hdecode
      rw [hdecode, Option.some.inj hevent]
    · cases hevent
  obtain ⟨readBuffer, hread⟩ := readMessage_of_front? hfront hdecode
  exact ⟨readBuffer, readReply_of_event hread⟩

/-- A wait for a reply takes what is awaited, and queues the events of it. -/
theorem takes_readReply (client : Client) :
    client.Takes client.awaited (Portion.events client.awaited) (left (readReply client)) := by
  -- The induction is on the frames that have arrived whole; each event goes round once more.
  induction hbodies : (FrameStream.cut client.channel.incoming).bodies generalizing client with
  | nil =>
    have hnone : FrameStream.front? client.channel.incoming = none := by
      cases hfront : FrameStream.front? client.channel.incoming with
      | none => rfl
      | some found =>
        rw [FrameStream.cut_of_some hfront] at hbodies
        cases hbodies
    obtain ⟨readBuffer, hread⟩ := readMessage_of_lacking hnone
    rw [readReply_of_error hread, awaited_of_front?_eq_none hnone, Portion.events_remnant]
    exact .remnant rfl rfl
  | cons first others ih =>
    cases hfront : FrameStream.front? client.channel.incoming with
    | none =>
      rw [FrameStream.cut_of_none hfront] at hbodies
      cases hbodies
    | some found =>
      obtain ⟨body, rest⟩ := found
      have hcut := FrameStream.cut_of_some hfront
      rw [hcut, List.cons.injEq] at hbodies
      obtain ⟨rfl, hothers⟩ := hbodies
      have hawaited : client.awaited =
          Portion.awaited (FrameStream.cut rest).rest (body :: (FrameStream.cut rest).bodies) := by
        rw [awaited, hcut]
      cases hevent : ServerMessage.eventIn? body with
      | none =>
        rw [hawaited, Portion.awaited, hevent, Portion.events_whole_of_eq_none hevent]
        exact takes_readReply_of_other hfront hevent
      | some event =>
        obtain ⟨readBuffer, hread⟩ := readReply_of_eventIn? hfront hevent
        rw [hread, hawaited, Portion.awaited, hevent, Portion.events_whole _ hevent]
        have hqueued : client.Takes [.whole body] [event] { client with
            channel := { client.channel with incoming := rest }, readBuffer
            pending := client.pending ++ [event] } := .whole hfront rfl rfl
        exact hqueued.trans (ih _ hothers)

theorem left_give (result : CallResult) (client : Client) : left (give result client) = client := by
  cases result <;> rfl

/-- Judging a reply leaves the client as the wait for it did. -/
theorem left_settleCall (request : Request) (client : Client) :
    left (settleCall request client) = left (readReply client) := by
  cases hread : readReply client with
  | ok reply after =>
    rw [settleCall_of_readReply hread, left_give]
    rfl
  | error e after =>
    rw [settleCall_of_error hread]
    rfl

/-- Sending takes nothing off the stream, whether it succeeds or fails. -/
theorem takes_send (request : Request) (client : Client) :
    client.Takes [] [] (left (send request client)) := by
  cases hencode : request.encode client.writeBuffer with
  | error e writeBuffer =>
    rw [send_of_encode_eq_error hencode]
    exact .nothing rfl rfl
  | ok bytes writeBuffer =>
    cases hheard : client.channel.isHeard with
    | true =>
      rw [send_of_isHeard hencode hheard]
      exact .nothing rfl rfl
    | false =>
      rw [send_of_unheard hencode hheard]
      exact .nothing rfl rfl

/-- Reading one message takes a whole frame or what has come of one, and an event that is read
leaves the queue alone. -/
theorem takes_readEvent (client : Client) :
    client.Takes client.next [] (left (readEvent client)) ∧
      given (readEvent client) = Portion.events client.next := by
  unfold readEvent
  cases hfront : FrameStream.front? client.channel.incoming with
  | none =>
    obtain ⟨readBuffer, hread⟩ := readMessage_of_lacking hfront
    rw [hread, next_of_front?_eq_none hfront, Portion.events_remnant]
    exact ⟨.remnant rfl rfl, rfl⟩
  | some found =>
    obtain ⟨body, rest⟩ := found
    rw [next_of_front? hfront]
    cases hdecode : ServerMessage.decode body with
    | error e =>
      obtain ⟨readBuffer, hread⟩ := readMessage_of_undecodable hfront hdecode
      rw [hread, Portion.events_whole_of_eq_none (by rw [ServerMessage.eventIn?, hdecode])]
      exact ⟨.whole hfront rfl (List.append_nil _).symm, rfl⟩
    | ok message =>
      obtain ⟨readBuffer, hread⟩ := readMessage_of_front? hfront hdecode
      rw [hread]
      cases message with
      | reply reply =>
        rw [Portion.events_whole_of_eq_none (by rw [ServerMessage.eventIn?, hdecode])]
        exact ⟨.whole hfront rfl (List.append_nil _).symm, rfl⟩
      | event event =>
        rw [Portion.events_whole [] (by rw [ServerMessage.eventIn?, hdecode])]
        exact ⟨.whole hfront rfl (List.append_nil _).symm, rfl⟩

end Client

/-- A client and the server at the other end of its stream, between two steps of either. -/
structure Reception where
  client : Client := {}
  /-- The bodies of the frames that the server has written. -/
  letters : List Bytes := []
  /-- What the server has written and what has not arrived. -/
  underWay : Bytes := []
  /-- The events that the client has handed out. -/
  handed : List Event := []
  /-- What the client has taken off its stream. -/
  taken : List Portion := []

/-- What a client or its server does. -/
inductive Happening where
  /-- The server writes a frame of any body that a frame can have. -/
  | write (body : Bytes)
  | bring (count : Nat)
  /-- The server writes no more. -/
  | finish
  /-- The server gives up its end. -/
  | drop
  /-- The client makes a call, during which bytes arrive. -/
  | call (request : Request) (count : Nat)
  | takeEvent

namespace Reception

def write (reception : Reception) (body : Bytes) : Reception :=
  if body.length ≤ maxPayload then
    { reception with
      letters := reception.letters ++ [body]
      underWay := reception.underWay ++ FrameStream.frame body }
  else reception

/-- Lets bytes arrive, if the stream has not ended. -/
def bring (reception : Reception) (count : Nat) : Reception :=
  if reception.client.channel.ended then reception
  else
    { reception with
      client := { reception.client with
        channel := reception.client.channel.deliver (reception.underWay.take count) }
      underWay := reception.underWay.drop count }

/-- Ends the call for a request with what has arrived. -/
def settle (reception : Reception) (request : Request) : Reception :=
  { reception with
    client := Client.left (Client.settleCall request reception.client)
    taken := reception.taken ++ reception.client.awaited }

/-- Makes a call. One whose request cannot be sent reads nothing. -/
def call (reception : Reception) (request : Request) (count : Nat) : Reception :=
  match Client.send request reception.client with
  | .ok _ client => ({ reception with client }.bring count).settle request
  | .error _ client => { reception with client }

/-- Takes an event, for which nothing is read as long as events are queued. -/
def takeEvent (reception : Reception) : Reception :=
  let result := Client.nextEvent reception.client
  let portions := if reception.client.pending.isEmpty then reception.client.next else []
  { reception with
    client := Client.left result
    handed := reception.handed ++ Client.given result
    taken := reception.taken ++ portions }

def act (reception : Reception) : Happening → Reception
  | .write body => reception.write body
  | .bring count => reception.bring count
  | .finish =>
    { reception with
      client := { reception.client with channel := reception.client.channel.finish } }
  | .drop =>
    { reception with
      client := { reception.client with channel := reception.client.channel.drop } }
  | .call request count => reception.call request count
  | .takeEvent => reception.takeEvent

/-- What a client that has just connected comes to with its server. -/
def run (happenings : List Happening) : Reception := happenings.foldl act {}

/-- A call during which nothing arrives is the call that `Client.perform` makes. -/
theorem client_call (reception : Reception) (request : Request) :
    (reception.act (.call request 0)).client =
      Client.left (Client.perform request reception.client) := by
  rw [Client.perform_eq]
  change (reception.call request 0).client = _
  unfold call
  cases hsend : Client.send request reception.client with
  | error e client =>
    rw [bind_of_eq_error hsend]
    rfl
  | ok value client =>
    have hbring : ({ reception with client }.bring 0) = { reception with client } := by
      unfold bring
      split
      · rfl
      · simp [Channel.deliver]
    rw [bind_of_eq_ok hsend]
    simp only [hbring]
    rfl

/-- The events that were handed out and those that are queued are the events of what was taken off
the stream, and nothing else is missing from what the server has written. -/
structure Accounted (reception : Reception) : Prop where
  events_eq : reception.handed ++ reception.client.pending = Portion.events reception.taken
  bytes_eq : reception.taken.flatMap Portion.bytes ++ reception.client.channel.incoming ++
    reception.underWay = FrameStream.joined reception.letters
  short_letters : ∀ body ∈ reception.letters, body.length < BigEndian.span 2
  short_taken : ∀ body, Portion.whole body ∈ reception.taken → body.length < BigEndian.span 2

variable {reception : Reception}

theorem Accounted.start : Accounted {} where
  events_eq := rfl
  bytes_eq := rfl
  short_letters := by simp
  short_taken := by simp

theorem Accounted.write (h : reception.Accounted) (body : Bytes) :
    (reception.write body).Accounted := by
  unfold Reception.write
  split
  · rename_i hlength
    refine ⟨h.events_eq, ?_, BigEndian.lt_span_two_append h.short_letters hlength, h.short_taken⟩
    rw [FrameStream.joined_append, ← h.bytes_eq]
    simp only [FrameStream.joined, List.append_nil, List.append_assoc]
  · exact h

theorem Accounted.bring (h : reception.Accounted) (count : Nat) :
    (reception.bring count).Accounted := by
  unfold Reception.bring
  split
  · exact h
  · rename_i hgoes
    refine ⟨h.events_eq, ?_, h.short_letters, h.short_taken⟩
    rw [← h.bytes_eq, Channel.deliver, if_neg hgoes]
    simp only [List.append_assoc, List.take_append_drop]

/-- What the client takes is accounted for, if all of its events are queued or handed out. -/
theorem Accounted.takes (h : reception.Accounted) {client : Client} {portions : List Portion}
    {queued new : List Event} (htakes : reception.client.Takes portions queued client)
    (hevents : new ++ queued = Portion.events portions)
    (hnew : reception.client.pending = [] ∨ new = []) :
    Accounted { reception with
      client, handed := reception.handed ++ new, taken := reception.taken ++ portions } where
  events_eq := by
    rw [Portion.events_append, ← h.events_eq, htakes.pending_eq, ← hevents]
    rcases hnew with hnone | hnone
    · simp [hnone]
    · simp [hnone]
  bytes_eq := by
    rw [← h.bytes_eq, ← htakes.bytes_eq]
    simp only [List.flatMap_append, List.append_assoc]
  short_letters := h.short_letters
  short_taken := by
    intro body hbody
    rcases List.mem_append.mp hbody with hold | hnow
    · exact h.short_taken body hold
    · exact htakes.short body hnow

theorem Accounted.of_takes_nothing (h : reception.Accounted) {client : Client}
    (htakes : reception.client.Takes [] [] client) : Accounted { reception with client } := by
  have hnothing := h.takes htakes (List.nil_append _) (.inr rfl)
  rwa [List.append_nil, List.append_nil] at hnothing

theorem Accounted.settle (h : reception.Accounted) (request : Request) :
    (reception.settle request).Accounted := by
  have htakes := Client.takes_readReply reception.client
  rw [← Client.left_settleCall request] at htakes
  have hsettled := h.takes htakes (List.nil_append _) (.inr rfl)
  rwa [List.append_nil] at hsettled

theorem Accounted.call (h : reception.Accounted) (request : Request) (count : Nat) :
    (reception.call request count).Accounted := by
  have htakes := Client.takes_send request reception.client
  unfold Reception.call
  cases hsend : Client.send request reception.client with
  | error e client =>
    rw [hsend] at htakes
    exact h.of_takes_nothing htakes
  | ok value client =>
    rw [hsend] at htakes
    exact ((h.of_takes_nothing htakes).bring count).settle request

theorem Accounted.takeEvent (h : reception.Accounted) : reception.takeEvent.Accounted := by
  unfold Reception.takeEvent
  cases hpending : reception.client.pending with
  | cons event pending =>
    have htake : Client.nextEvent reception.client =
        .ok event { reception.client with pending } := by
      rw [Client.nextEvent, hpending]
    rw [htake]
    -- The event moves from the front of the queue to the end of what was handed out.
    refine ⟨?_, ?_, h.short_letters, ?_⟩
    · have hevents := h.events_eq
      rw [hpending] at hevents
      simpa [Client.left, Client.given] using hevents
    · simpa [Client.left] using h.bytes_eq
    · simpa using h.short_taken
  | nil =>
    have htake : Client.nextEvent reception.client = Client.readEvent reception.client := by
      rw [Client.nextEvent, hpending]
    obtain ⟨htakes, hevents⟩ := Client.takes_readEvent reception.client
    rw [htake]
    exact h.takes htakes ((List.append_nil _).trans hevents) (.inl hpending)

theorem Accounted.act (h : reception.Accounted) (happening : Happening) :
    (reception.act happening).Accounted := by
  cases happening with
  | write body => exact h.write body
  | bring count => exact h.bring count
  | finish | drop => exact h.of_takes_nothing (.nothing rfl rfl)
  | call request count => exact h.call request count
  | takeEvent => exact h.takeEvent

theorem accounted_run (happenings : List Happening) : (run happenings).Accounted :=
  List.foldlRecOn happenings act Accounted.start fun _ h happening _ => h.act happening

/-- Events are handed out once each, in the order in which they arrive. Whatever frames a server
writes, and whatever calls a client makes, the events that it has handed out and behind them the
queued ones are the events of the frames that it has taken off its stream; what it has taken and
what is still before it make up all that the server has written. As long as no frame was torn, the
frames that it has taken are the first that were written, and the others are still before it. -/
theorem handed_append_pending (happenings : List Happening) :
    let now := run happenings
    now.handed ++ now.client.pending =
        (Portion.bodies now.taken).filterMap ServerMessage.eventIn? ∧
      now.taken.flatMap Portion.bytes ++ now.client.channel.incoming ++ now.underWay =
        FrameStream.joined now.letters ∧
      ((∀ portion ∈ now.taken, portion.body? ≠ none) → ∃ left,
        now.letters = Portion.bodies now.taken ++ left ∧
        now.client.channel.incoming ++ now.underWay = FrameStream.joined left) := by
  intro now
  have haccounted : now.Accounted := accounted_run happenings
  refine ⟨haccounted.events_eq, haccounted.bytes_eq, fun hwhole => ?_⟩
  have hbytes := haccounted.bytes_eq
  rw [Portion.bytes_of_whole hwhole, List.append_assoc] at hbytes
  refine FrameStream.joined_prefix ?_ haccounted.short_letters hbytes
  intro body hbody
  obtain ⟨portion, hportion, hpart⟩ := List.mem_filterMap.mp hbody
  cases portion with
  | torn part => cases hpart
  | whole other =>
    obtain rfl := Option.some.inj hpart
    exact haccounted.short_taken _ hportion

/-- Two events, a frame without a message and a reply come before and during two calls, of which the
first fails. An event is read behind the queued ones, and one more has not arrived. -/
def mixed : List Happening :=
  [.write [0, 8, 0, 0, 0, 2, 0, 0, 0, 5], .write [9], .write [0, 8, 0, 0, 0, 1, 0, 0, 0, 8],
    .write [0, 1, 0, 3, 0, 0, 0, 0], .write [0, 8, 0, 0, 0, 4, 0, 0, 0, 6],
    .write [0, 8, 0, 0, 0, 2, 0, 0, 0, 7], .bring 12, .call (.removeService 1 [7]) 3, .takeEvent,
    .call (.removeService 1 [7]) 34, .takeEvent, .takeEvent]

theorem handed_append_pending_mixed :
    (∀ portion ∈ (run mixed).taken, portion.body? ≠ none) ∧
      (run mixed).handed = [.partition 5, .state .associated, .role .leader] ∧
      (Portion.bodies (run mixed).taken).filterMap ServerMessage.eventIn? =
        [.partition 5, .state .associated, .role .leader] ∧
      ∃ left, (run mixed).letters = Portion.bodies (run mixed).taken ++ left ∧
        left.length = 1 := by
  have hwhole : ∀ portion ∈ (run mixed).taken, portion.body? ≠ none := by decide +kernel
  have hhanded : (run mixed).handed = [.partition 5, .state .associated, .role .leader] := by
    decide +kernel
  have hpending : (run mixed).client.pending = [] := by decide +kernel
  have hletters : (run mixed).letters.length = 6 := by decide +kernel
  have hbodies : (Portion.bodies (run mixed).taken).length = 5 := by decide +kernel
  obtain ⟨hevents, -, hrest⟩ := handed_append_pending mixed
  obtain ⟨left, hleft, -⟩ := hrest hwhole
  rw [hhanded, hpending, List.append_nil] at hevents
  refine ⟨hwhole, hhanded, hevents.symm, left, hleft, ?_⟩
  rw [hleft, List.length_append, hbodies] at hletters
  omega

end Reception

end MeshControl
