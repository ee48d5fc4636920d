import MeshControl.Proofs.Server.Causes

/-!
An event is fanned out to its subscribers and to nobody else. A send touches the one connection that
it is let at: it offers the frame of the event, which is the same for all, and closes the connection
if the stream does not take it whole (`Connection.IsSent`). So a fanout is the sends that it makes,
each on its own, and serving one connection changes the others by nothing but the events of the
kinds that it reports as changed (`Registry.fanout_sends_once`).
-/

namespace MeshControl

namespace Connection

/-- A connection is sent messages and is otherwise left alone. Their frames are offered in order, it
is open behind them exactly if all were taken whole, and to a closed one nothing is done. -/
structure IsSent (before : Connection) (messages : List ServerMessage) (after : Connection) :
    Prop where
  frame : ∃ output outlet isOpen, after = { before with output, outlet, isOpen }
  conveys : before.isOpen = true →
    before.outlet.Conveys (messages.map ServerMessage.payload?) after.isOpen after.outlet
  eq_of_closed : before.isOpen = false → after = before
  eq_of_nil : messages = [] → after = before

variable {before middle after : Connection} {first second : List ServerMessage}

theorem IsSent.nil (connection : Connection) : connection.IsSent [] connection where
  frame := ⟨_, _, _, rfl⟩
  conveys hopen := by
    rw [hopen]
    exact .done _
  eq_of_closed _ := rfl
  eq_of_nil _ := rfl

/-- Nothing is sent to a closed connection. -/
theorem IsSent.of_closed (messages : List ServerMessage) (hclosed : before.isOpen = false) :
    before.IsSent messages before where
  frame := ⟨_, _, _, rfl⟩
  conveys hopen := by
    rw [hopen] at hclosed
    cases hclosed
  eq_of_closed _ := rfl
  eq_of_nil _ := rfl

theorem IsSent.trans (hfirst : before.IsSent first middle) (hsecond : middle.IsSent second after) :
    before.IsSent (first ++ second) after where
  frame := by
    obtain ⟨_, _, _, rfl⟩ := hfirst.frame
    obtain ⟨output, outlet, isOpen, rfl⟩ := hsecond.frame
    exact ⟨output, outlet, isOpen, rfl⟩
  conveys hopen := by
    have hearlier := hfirst.conveys hopen
    rw [List.map_append]
    cases hmiddle : middle.isOpen with
    | true =>
      rw [hmiddle] at hearlier
      exact hearlier.append (hsecond.conveys hmiddle)
    | false =>
      -- The first messages broke the connection, so the others are not offered.
      rw [hmiddle] at hearlier
      rw [hsecond.eq_of_closed hmiddle, hmiddle]
      exact hearlier.append_of_false _
  eq_of_closed hclosed := by
    obtain rfl := hfirst.eq_of_closed hclosed
    exact hsecond.eq_of_closed hclosed
  eq_of_nil hnil := by
    obtain ⟨hnone, hnothing⟩ := List.append_eq_nil_iff.mp hnil
    rw [hsecond.eq_of_nil hnothing, hfirst.eq_of_nil hnone]

theorem Sends.isSent {message : ServerMessage} {whole : Bool}
    (h : before.Sends message whole after) (hopen : before.isOpen = true) :
    before.IsSent [message] after := by
  obtain ⟨output, outlet, hafter⟩ := h.eq hopen
  refine ⟨⟨output, outlet, whole, hafter⟩, fun _ => ?_, fun hclosed => ?_, nofun⟩
  · have hwhole : after.isOpen = whole := by rw [hafter]
    rw [hwhole]
    exact h.conveys
  · rw [hopen] at hclosed
    cases hclosed

/-- A send that fails leaves the connection closed, and one that succeeds leaves it open. -/
theorem isSent_sendEvent (event : Event) (hopen : before.isOpen = true) :
    before.IsSent [.event event] ((Exchange.sendEvent event).leaves before) ∧
      ((Push.attempt event before).failure = none ↔
        ((Exchange.sendEvent event).leaves before).isOpen = true) := by
  unfold Push.attempt Exchange.leaves
  rcases Exchange.sendMessage_cases before (.event event) hopen with
    ⟨after, hsent, hsends⟩ | ⟨e, after, hsent, hsends⟩
  · change Exchange.sendEvent event before = _ at hsent
    obtain ⟨_, _, rfl⟩ := hsends.eq hopen
    rw [hsent]
    exact ⟨hsends.isSent hopen, by simp⟩
  · change Exchange.sendEvent event before = _ at hsent
    obtain ⟨_, _, rfl⟩ := hsends.eq hopen
    rw [hsent]
    exact ⟨hsends.isSent hopen, by simp⟩

/-- A push sends its event to a subscriber, and nothing to anyone else. -/
theorem isSent_push (connection : Connection) (event : Event) :
    connection.IsSent (if connection.isSubscribed event.kind then [.event event] else [])
      (connection.push event).2 := by
  rw [push_eq]
  cases hopen : connection.isOpen with
  | false =>
    have hreceives : connection.receives event.kind = false := by simp [receives, hopen]
    rw [hreceives]
    exact .of_closed _ hopen
  | true =>
    cases hsubscribed : connection.isSubscribed event.kind with
    | false =>
      have hreceives : connection.receives event.kind = false := by simp [receives, hsubscribed]
      rw [hreceives]
      exact .nil connection
    | true =>
      rw [if_pos (receives_iff.mpr ⟨hopen, hsubscribed⟩)]
      exact (isSent_sendEvent event hopen).1

/-- Of events that are pushed one behind the other, a connection is sent those that its peer has
subscribed to. -/
theorem isSent_pushed (events : List Event) (connection : Connection) :
    connection.IsSent ((events.filter (connection.isSubscribed ·.kind)).map .event)
      (connection.pushed events) := by
  induction events generalizing connection with
  | nil => exact .nil connection
  | cons event events ih =>
    have hothers := ih (connection.push event).2
    simp only [isSubscribed_push] at hothers
    have hpushed := (connection.isSent_push event).trans hothers
    rw [List.filter_cons]
    cases hsubscribed : connection.isSubscribed event.kind <;> rw [hsubscribed] at hpushed
    · exact hpushed
    · exact hpushed

end Connection

namespace Registry

variable {β : Type} [Backend β]

/-- A fanout sends an event once to every connection that is open and subscribed to the kind, and
to no other. The sends are made in the order of the ids and counted, whether they succeed or not.
Each offers the frame of the event to its own stream, whatever the others have come to, and closes
its own connection if the frame is not taken whole; nothing else of a connection changes. To publish
an event is to fan it out to the subscribers of its kind. Therefore, when one connection is served,
the others are sent the current values of those kinds that are reported as changed, as far as they
have subscribed to them, and are left alone otherwise. -/
theorem fanout_sends_once (registry : Registry) (kind : EventKind) (event : Event) :
    let (count, after, pushes) := registry.fanout kind (sending event) []
    (count = pushes.length ∧
      pushes = (registry.connections.filter (·.receives kind)).map (.attempt event) ∧
      (registry.IsOrdered → (pushes.map Push.id).Pairwise (· < ·)) ∧
      after.nextId = registry.nextId ∧
      after.connections = registry.connections.map fun connection =>
        if connection.receives kind then (Exchange.sendEvent event).leaves connection
        else connection) ∧
    (∀ connection : Connection, connection.receives kind = true →
      connection.IsSent [.event event] ((Exchange.sendEvent event).leaves connection) ∧
        ((Push.attempt event connection).failure = none ↔
          ((Exchange.sendEvent event).leaves connection).isOpen = true)) ∧
    (registry.fanout event.kind (sending event) [] =
      let (pushes, after) := registry.publish event
      (pushes.length, after, pushes)) ∧
    ∀ (server : Server β) (id now : Nat),
      (server.registry.get? id = none → server.serve id now = server) ∧
      ∀ connection, server.registry.get? id = some connection →
        let (changed, _, left) := connection.handleAll now server.backend
        List.Forall₂ (fun other after => other.id ≠ id →
            other.IsSent ((changed.toList.filter other.isSubscribed).map fun kind =>
              .event (Backend.currentEvent left kind)) after)
          server.registry.connections (server.serve id now).registry.connections := by
  refine ⟨?_, fun connection hreceives =>
    Connection.isSent_sendEvent event (Connection.receives_iff.mp hreceives).1,
    registry.publish_eq_fanout event, fun server id now => ⟨fun hnone => ?_, ?_⟩⟩
  · simp only [walk_sending, List.length_map, List.nil_append, List.map_map, true_and,
      and_true]
    intro hordered
    have hids : Push.id ∘ Push.attempt event = Connection.id := rfl
    rw [hids]
    exact hordered.increasing.sublist (List.filter_sublist.map _)
  · rw [Server.serve, hnone]
  · intro connection hget
    rcases hall : connection.handleAll now server.backend with ⟨changed, handled, left⟩
    dsimp only
    rw [Server.connections_serve hget hall, List.forall₂_map_right_iff, List.forall₂_same]
    intro other _ hother
    have hsent := other.isSent_pushed (changed.toList.map (Backend.currentEvent left))
    rw [if_neg hother]
    simpa [List.filter_map, Function.comp_def] using hsent

/-- A peer that publishes a service. -/
def publisher : Connection where
  id := 4
  inlet := { arrivals := [.data [0, 13, 0, 2, 0, 0, 0, 1, 0, 1, 7, 0, 2, 8, 9]] }
  input := .empty

/-- Before the publisher there are a subscriber to services whose stream takes only half of a write,
one whose connection is closed, and a peer that has subscribed to something else; behind it there is
a subscriber whose stream is interrupted once. -/
def audience : Server MemoryBackend where
  config := {}
  backend := {}
  registry :=
    { connections :=
        [{ id := 1, input := .empty, outlet := { upcoming := [.half] }
           subscriptions := .single .service },
          { id := 2, isOpen := false, input := .empty, subscriptions := .single .service },
          { id := 3, input := .empty, subscriptions := .single .role },
          publisher,
          { id := 5, input := .empty, outlet := { upcoming := [.interrupted] }
            subscriptions := .single .service }]
      nextId := 6 }

theorem fanout_sends_once_audience :
    audience.registry.IsOrdered ∧
    (let (count, after, pushes) := audience.registry.fanout .service (sending (.services [])) []
     count = 2 ∧ pushes.map Push.id = [1, 5] ∧ (pushes.map Push.id).Pairwise (· < ·) ∧
       after.connections.map Connection.isOpen = [false, false, true, true, true]) ∧
    (∀ connection ∈ audience.registry.connections, connection.receives .service = true →
      connection.IsSent [.event (.services [])]
        ((Exchange.sendEvent (.services [])).leaves connection)) ∧
    audience.registry.get? 4 = some publisher ∧ ∃ (changed : EventSet) (left : MemoryBackend),
      changed.contains .service = true ∧
      List.Forall₂ (fun other after => other.id ≠ 4 →
          other.IsSent ((changed.toList.filter other.isSubscribed).map fun kind =>
            .event (Backend.currentEvent left kind)) after)
        audience.registry.connections (audience.serve 4 0).registry.connections := by
  have hordered : audience.registry.IsOrdered := ⟨by decide, by decide⟩
  obtain ⟨⟨hcount, hpushes, hincreasing, -, hafter⟩, hsent, -, hserve⟩ :=
    @fanout_sends_once MemoryBackend _ audience.registry .service (.services [])
  refine ⟨hordered, ⟨?_, ?_, hincreasing hordered, ?_⟩,
    fun connection _ hreceives => (hsent connection hreceives).1, rfl, ?_⟩
  · decide +kernel
  · decide +kernel
  · decide +kernel
  · have hothers := (hserve audience 4 0).2 publisher rfl
    have hchanged : (publisher.handleAll 0 audience.backend).1.contains .service = true := by
      decide +kernel
    rcases hall : publisher.handleAll 0 audience.backend with ⟨changed, handled, left⟩
    rw [hall] at hothers hchanged
    exact ⟨changed, left, hchanged, hothers⟩

end Registry

end MeshControl
