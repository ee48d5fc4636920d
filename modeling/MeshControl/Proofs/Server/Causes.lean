import MeshControl.Proofs.Connection.Closing
import MeshControl.Proofs.Connection.Replying
import MeshControl.Proofs.Server.Numbering
import MeshControl.Proofs.Server.Registering

/-!
Every close has a cause of its own. A server closes a connection only while it handles what has
arrived on it, publishes to it, or looks for idle ones. What goes wrong in handling is the
connection's own trouble (`Connection.handleAll_closes`); a push goes wrong if the event is too long
for a frame or a write is not taken whole (`Connection.push_closes`), and the latter does not happen
on a stream that accepts every write. So no peer closes the connection of another, except by what
the other has subscribed to (`Server.closes_for_cause`).
-/

namespace MeshControl

namespace Connection

variable {connection : Connection} {event : Event} {events : List Event}

/-- Pushes events one behind the other. -/
def pushed (events : List Event) (connection : Connection) : Connection :=
  events.foldl (fun connection event => (connection.push event).2) connection

theorem moves_pushed (events : List Event) (connection : Connection) :
    connection.Moves (connection.pushed events) := by
  induction events generalizing connection with
  | nil => exact .refl connection
  | cons event events ih => exact (connection.moves_push event).trans (ih _)

theorem offers_pushed (events : List Event) (connection : Connection) :
    connection.Offers (connection.pushed events) := by
  induction events generalizing connection with
  | nil => exact .of_outlet_eq rfl fun h => h
  | cons event events ih => exact (offers_push connection event).trans (ih _)

theorem isSubscribed_push (connection : Connection) (event : Event) (kind : EventKind) :
    (connection.push event).2.isSubscribed kind = connection.isSubscribed kind := by
  rcases push_cases connection event with ⟨-, hsame⟩ | ⟨whole, hsends⟩
  · rw [hsame]
  · rw [isSubscribed, hsends.frame.2.1, isSubscribed]

theorem isSubscribed_pushed (events : List Event) (connection : Connection) (kind : EventKind) :
    (connection.pushed events).isSubscribed kind = connection.isSubscribed kind := by
  induction events generalizing connection with
  | nil => rfl
  | cons event events ih => exact (ih _).trans (connection.isSubscribed_push event kind)

/-- A push closes a connection if the peer has subscribed to the event and the event is too long for
a frame, or if a write is not taken whole, and for no other reason. -/
theorem push_closes (hopen : connection.isOpen = true)
    (hclosed : (connection.push event).2.isOpen = false) :
    connection.isSubscribed event.kind = true ∧ ¬ (ServerMessage.event event).Fits ∨
      connection.outlet.BrokeSince (connection.push event).2.outlet := by
  cases hreceives : connection.receives event.kind with
  | false =>
    rw [push, if_neg (by simp [hreceives]), hopen] at hclosed
    cases hclosed
  | true =>
    rcases push_cases connection event with ⟨hnone, -⟩ | ⟨whole, hsends⟩
    · rw [hreceives] at hnone
      cases hnone
    · obtain ⟨output, outlet, heq⟩ := hsends.eq hopen
      obtain rfl : whole = false := by
        rw [heq] at hclosed
        exact hclosed
      rcases hsends.conveys.broke with hnone | hbroke
      · rw [List.mem_singleton] at hnone
        exact .inl ⟨(receives_iff.mp hreceives).2,
          (ServerMessage.payload?_eq_none_iff _).mp hnone.symm⟩
      · exact .inr hbroke

theorem pushed_closes (hopen : connection.isOpen = true)
    (hclosed : (connection.pushed events).isOpen = false) :
    (∃ event ∈ events, connection.isSubscribed event.kind = true ∧
      ¬ (ServerMessage.event event).Fits) ∨
      connection.outlet.BrokeSince (connection.pushed events).outlet := by
  induction events generalizing connection with
  | nil =>
    have hstill : connection.isOpen = false := hclosed
    rw [hopen] at hstill
    cases hstill
  | cons event events ih =>
    have hlater := (offers_pushed events (connection.push event).2).log_suffix
    cases hpushed : (connection.push event).2.isOpen with
    | false =>
      rcases push_closes hopen hpushed with hlong | hbroke
      · exact .inl ⟨event, List.mem_cons_self .., hlong⟩
      · exact .inr (hbroke.later hlater)
    | true =>
      rcases ih hpushed hclosed with ⟨other, hother, hsubscribed, hlong⟩ | hbroke
      · rw [isSubscribed_push] at hsubscribed
        exact .inl ⟨other, List.mem_cons_of_mem _ hother, hsubscribed, hlong⟩
      · exact .inr (hbroke.earlier (offers_push connection event).log_suffix)

/-- No push closes a connection whose stream accepts, if the events fit into a frame to which the
peer has subscribed. -/
theorem pushed_of_accepting (hopen : connection.isOpen = true)
    (haccepting : connection.outlet.IsAccepting)
    (hfits : ∀ event ∈ events, connection.isSubscribed event.kind = true →
      (ServerMessage.event event).Fits) : (connection.pushed events).isOpen = true := by
  induction events generalizing connection with
  | nil => exact hopen
  | cons event events ih =>
    have hpush : (connection.push event).2.isOpen = true ∧
        (connection.push event).2.outlet.IsAccepting := by
      unfold push
      split
      · rename_i hreceives
        obtain ⟨_, output, outlet, -, hsent, hstill, -⟩ :=
          Exchange.sendMessage_of_accepting hopen haccepting
            (hfits event (List.mem_cons_self ..) (receives_iff.mp hreceives).2)
        change Exchange.sendEvent event connection = _ at hsent
        rw [hsent]
        exact ⟨hopen, hstill⟩
      · exact ⟨hopen, haccepting⟩
    refine ih hpush.1 hpush.2 fun other hother hsubscribed => ?_
    rw [isSubscribed_push] at hsubscribed
    exact hfits other (List.mem_cons_of_mem _ hother) hsubscribed

end Connection

namespace Registry

/-- A registry whose ids are in order and whose connections hold no more than their phases need. -/
structure IsSound (registry : Registry) : Prop where
  isOrdered : registry.IsOrdered
  collecting : ∀ connection ∈ registry.connections, connection.IsCollecting

theorem IsSound.turns {before after : Registry} (h : IsSound before) (hturns : before.Turns after) :
    IsSound after := by
  refine ⟨hturns.isOrdered h.isOrdered, fun connection hmem => ?_⟩
  cases hturns with
  | grows _ hlacks =>
    rcases List.mem_append.mp hmem with hold | hnew
    · exact h.collecting connection hold
    · rw [List.mem_singleton.mp hnew]
      exact hlacks.isCollecting
  | moves hmoves =>
    obtain ⟨earlier, hearlier, hcame⟩ := Registry.exists_moves_of_mem hmoves connection hmem
    exact (h.collecting earlier hearlier).moves hcame
  | shrinks => exact h.collecting connection (List.mem_filter.mp hmem).1

end Registry

/-- The peer whose doing a step is, if it is the doing of one. -/
def ServerAction.peer? : ServerAction → Option Nat
  | arrive id _ | finish id | serve id _ => some id
  | _ => none

namespace Server

variable {β : Type}

theorem turns_accept (server : Server β) (inlet : Inlet) (outlet : Outlet) (now : Nat) :
    server.registry.Turns (server.accept inlet outlet now).2.registry := by
  unfold accept
  split
  · exact .refl _
  · cases hallocate : server.registry.allocate inlet outlet server.config.bufferSize now with
    | error e => exact .refl _
    | ok allocated => exact (Registry.turns_allocate hallocate).2.2.1

variable [Backend β]

/-- The kinds that a step publishes. -/
def announced (server : Server β) : ServerAction → List EventKind
  | .notify kind => [kind]
  | .serve id now =>
    match server.registry.get? id with
    | some connection => (connection.handleAll now server.backend).1.toList
    | none => []
  | _ => []

/-- The states that a server comes to from one without connections by its own steps, by what happens
on the streams of its peers, and by what becomes of the network stack behind it. -/
inductive Runs : Server β → Prop where
  | start (config : ServerConfig) (backend : β) : Runs { config, backend }
  | step {server : Server β} (action : ServerAction) (h : Runs server) : Runs (server.act action)
  | shift {server : Server β} (backend : β) (h : Runs server) : Runs { server with backend }

/-- Why a step of a server closes a connection. -/
inductive Cause (server : Server β) (action : ServerAction) (before after : Connection) : Prop where
  /-- What has arrived on it is handled: its stream ends or fails, a message is malformed, or an
  answer is too long for a frame. -/
  | troubled {now : Nat} (haction : action = .serve before.id now)
    (htrouble : before.Trouble now server.backend)
  /-- A write to its stream fails or is not taken whole. -/
  | unwritten (hbroke : before.outlet.BrokeSince after.outlet)
  /-- An event that the peer has subscribed to is published and too long for a frame. -/
  | unpublishable {kind : EventKind} (hkind : kind ∈ server.announced action)
    (hsubscribed : after.isSubscribed kind = true)
    (hlong : ¬ (ServerMessage.event (Backend.currentEvent (server.act action).backend kind)).Fits)
  /-- It has been silent for longer than the limit. -/
  | silent {now limit : Nat} (haction : action = .closeIdle now)
    (hlimit : server.config.idleLimit = some limit) (hidle : before.isIdle now limit = true)

variable {server : Server β}

/-- Publishing kinds pushes their current values to every connection and does nothing else. -/
theorem notifyAll_eq (server : Server β) (changed : EventSet) :
    server.notifyAll changed =
      { server with
        registry.connections := server.registry.connections.map
          (Connection.pushed (changed.toList.map (Backend.currentEvent server.backend))) } := by
  unfold notifyAll
  generalize changed.toList = kinds
  induction kinds generalizing server with
  | nil =>
    have hsame : Connection.pushed [] = id := rfl
    simp [hsame]
  | cons kind kinds ih =>
    rw [List.foldl_cons, ih]
    simp only [notify, Registry.publish, List.map_map]
    rfl

theorem serve_eq {id now : Nat} {connection after : Connection} {changed : EventSet} {left : β}
    (hget : server.registry.get? id = some connection)
    (hall : connection.handleAll now server.backend = (changed, after, left)) :
    server.serve id now =
      { server with registry := server.registry.replace after, backend := left }.notifyAll
        changed := by
  simp only [serve, hget, hall]

theorem turns_notifyAll (server : Server β) (changed : EventSet) :
    server.registry.Turns (server.notifyAll changed).registry := by
  rw [notifyAll_eq]
  exact .moves (Registry.moves_map fun connection _ => connection.moves_pushed _)

/-- A step turns the registry once, or twice when a connection is handled and kinds are published
behind it. -/
theorem turns_act (h : server.registry.IsSound) (action : ServerAction) :
    ∃ middle, server.registry.Turns middle ∧ middle.Turns (server.act action).registry := by
  have hmodify (id : Nat) {change : Connection → Connection}
      (hchange : ∀ connection : Connection, connection.Moves (change connection)) :
      server.registry.Turns (server.registry.modify id change) :=
    Registry.turns_modify h.isOrdered id hchange
  cases action with
  | accept inlet upcoming now => exact ⟨_, .refl _, turns_accept ..⟩
  | arrive id arrival | finish id | expect id upcoming =>
    exact ⟨_, .refl _, hmodify id fun _ => (Connection.Step.stream ..).moves⟩
  | serve id now =>
    change ∃ middle, _ ∧ Registry.Turns middle (server.serve id now).registry
    cases hget : server.registry.get? id with
    | none =>
      rw [serve, hget]
      exact ⟨_, .refl _, .refl _⟩
    | some connection =>
      rcases hall : connection.handleAll now server.backend with ⟨changed, after, left⟩
      have hpublished := turns_notifyAll
        { server with registry := server.registry.replace after, backend := left } changed
      rw [serve_eq hget hall]
      exact ⟨_, Registry.turns_replace h.isOrdered (Registry.get?_eq_some hget).1
        (Connection.moves_of_handleAll_eq hall), hpublished⟩
  | notify kind => exact ⟨_, .refl _, Registry.turns_publish ..⟩
  | closeIdle now =>
    change ∃ middle, _ ∧ Registry.Turns middle (server.closeIdle now).registry
    unfold closeIdle
    split
    · exact ⟨_, .refl _, Registry.turns_closeIdle ..⟩
    · exact ⟨_, .refl _, .refl _⟩
  | collect => exact ⟨_, .refl _, .shrinks⟩

theorem isSound_act (h : server.registry.IsSound) (action : ServerAction) :
    (server.act action).registry.IsSound := by
  obtain ⟨middle, hfirst, hsecond⟩ := turns_act h action
  exact (h.turns hfirst).turns hsecond

theorem precedes_act (h : server.registry.IsSound) (action : ServerAction) :
    server.registry.Precedes (server.act action).registry := by
  obtain ⟨middle, hfirst, hsecond⟩ := turns_act h action
  exact hfirst.precedes.trans hsecond.precedes

theorem Runs.isSound (h : server.Runs) : server.registry.IsSound := by
  induction h with
  | start config backend => exact ⟨⟨.nil, by simp⟩, by simp⟩
  | step action _ ih => exact isSound_act ih action
  | shift backend _ ih => exact ih

/-- What becomes of the connections when one of them is served: it is handled, and then the kinds
that have changed are published to all. -/
theorem connections_serve {id now : Nat} {connection after : Connection} {changed : EventSet}
    {left : β} (hget : server.registry.get? id = some connection)
    (hall : connection.handleAll now server.backend = (changed, after, left)) :
    (server.serve id now).registry.connections = server.registry.connections.map fun other =>
      (if other.id = id then after else other).pushed
        (changed.toList.map (Backend.currentEvent left)) := by
  have hafter : after.id = id :=
    (Connection.moves_of_handleAll_eq hall).continues.id_eq.trans (Registry.get?_eq_some hget).2
  rw [serve_eq hget hall, notifyAll_eq]
  simp only [Registry.replace, List.map_map, hafter]
  rfl

/-- What becomes of one connection when another peer is served, or its own. -/
theorem get?_serve (h : server.registry.IsSound) {id now : Nat}
    {connection after before : Connection} {changed : EventSet} {left : β}
    (hget : server.registry.get? id = some connection)
    (hall : connection.handleAll now server.backend = (changed, after, left))
    (hbefore : before ∈ server.registry.connections) :
    (server.serve id now).registry.get? before.id =
      some ((if before.id = id then after else before).pushed
        (changed.toList.map (Backend.currentEvent left))) := by
  have hafter : after.id = id :=
    (Connection.moves_of_handleAll_eq hall).continues.id_eq.trans (Registry.get?_eq_some hget).2
  rw [Registry.get?, connections_serve hget hall]
  refine h.isOrdered.get?_map _ (fun other => ?_) hbefore
  rw [(Connection.moves_pushed ..).continues.id_eq]
  split
  · rename_i hid
    exact hafter.trans hid.symm
  · rfl

/-- Publishing kinds closes a connection only if an event that it has subscribed to is too long for
a frame, or if a write is not taken whole; and not for the latter if its stream accepts. -/
theorem published_closes {backend : β} {kinds : List EventKind} {connection : Connection}
    (hopen : connection.isOpen = true)
    (hclosed : (connection.pushed (kinds.map (Backend.currentEvent backend))).isOpen = false) :
    ((∃ kind ∈ kinds, connection.isSubscribed kind = true ∧
        ¬ (ServerMessage.event (Backend.currentEvent backend kind)).Fits) ∨
      connection.outlet.BrokeSince
        (connection.pushed (kinds.map (Backend.currentEvent backend))).outlet) ∧
    (connection.outlet.IsAccepting → ∃ kind ∈ kinds, connection.isSubscribed kind = true ∧
      ¬ (ServerMessage.event (Backend.currentEvent backend kind)).Fits) := by
  constructor
  · rcases Connection.pushed_closes hopen hclosed with ⟨event, hevent, hlong⟩ | hbroke
    · obtain ⟨kind, hkind, rfl⟩ := List.mem_map.mp hevent
      rw [Backend.kind_currentEvent] at hlong
      exact .inl ⟨kind, hkind, hlong⟩
    · exact .inr hbroke
  · intro haccepting
    by_contra hnone
    push Not at hnone
    rw [Connection.pushed_of_accepting hopen haccepting] at hclosed
    · cases hclosed
    · intro event hevent
      obtain ⟨kind, hkind, rfl⟩ := List.mem_map.mp hevent
      rw [Backend.kind_currentEvent]
      exact hnone kind hkind

/-- If a step leaves a connection closed, it has a cause in what the connection itself has done or
is to be sent. If the step is neither the doing of its own peer nor the closing of idle connections
and its stream accepts, that is an event which the peer has subscribed to, and which is too long for
a frame. -/
def Explains (server : Server β) (action : ServerAction) (before after : Connection) : Prop :=
  after.isOpen = false → server.Cause action before after ∧
    (action.peer? ≠ some before.id → (∀ now, action ≠ .closeIdle now) →
      before.outlet.IsAccepting →
      ∃ kind ∈ server.announced action, before.isSubscribed kind = true ∧
        ¬ (ServerMessage.event (Backend.currentEvent (server.act action).backend kind)).Fits)

variable {action : ServerAction} {before after : Connection}

theorem Explains.of_open (hopen : after.isOpen = true) :
    server.Explains action before after := by
  intro hclosed
  rw [hopen] at hclosed
  cases hclosed

/-- A connection that a step only publishes to is closed for that reason. -/
theorem explains_pushed {kinds : List EventKind} (hopen : before.isOpen = true)
    (hkinds : server.announced action = kinds) :
    server.Explains action before
      (before.pushed (kinds.map (Backend.currentEvent (server.act action).backend))) := by
  intro hclosed
  obtain ⟨hclose, haccepting⟩ := published_closes hopen hclosed
  subst hkinds
  refine ⟨?_, fun _ _ hstream => haccepting hstream⟩
  rcases hclose with ⟨kind, hkind, hsubscribed, hlong⟩ | hbroke
  · refine .unpublishable hkind ?_ hlong
    rwa [Connection.isSubscribed_pushed]
  · exact .unwritten hbroke

/-- A connection that is served is closed while it is handled, or by what is published then. -/
theorem explains_served {now : Nat} {handled : Connection} {changed : EventSet} {left : β}
    (hcollecting : before.IsCollecting) (hopen : before.isOpen = true)
    (hall : before.handleAll now server.backend = (changed, handled, left))
    (hkinds : server.announced (.serve before.id now) = changed.toList)
    (hbackend : (server.serve before.id now).backend = left) :
    server.Explains (.serve before.id now) before
      (handled.pushed (changed.toList.map (Backend.currentEvent left))) := by
  intro hclosed
  have hearlier := (Connection.offers_handleAll before now server.backend).log_suffix
  have hclose := Connection.handleAll_closes now server.backend hcollecting hopen
  simp only [hall] at hearlier hclose
  have hlater := Connection.offers_pushed (changed.toList.map (Backend.currentEvent left)) handled
  refine ⟨?_, fun hother => absurd rfl hother⟩
  -- It was closed while it was handled, or was still open when the events came.
  cases hhandled : handled.isOpen with
  | false =>
    rcases hclose hhandled with htrouble | hbroke
    · exact .troubled rfl htrouble
    · exact .unwritten (hbroke.later hlater.log_suffix)
  | true =>
    rcases (published_closes hhandled hclosed).1 with ⟨kind, hkind, hsubscribed, hlong⟩ | hbroke
    · refine .unpublishable (hkinds ▸ hkind) ?_ ?_
      · rwa [Connection.isSubscribed_pushed]
      · change ¬ (ServerMessage.event
          (Backend.currentEvent (server.serve before.id now).backend kind)).Fits
        rwa [hbackend]
    · exact .unwritten (hbroke.earlier hearlier)

theorem explains_serve (h : server.registry.IsSound) (id now : Nat)
    (hmem : before ∈ server.registry.connections) (hopen : before.isOpen = true) :
    ∃ after, (server.serve id now).registry.get? before.id = some after ∧
      server.Explains (.serve id now) before after := by
  cases hget : server.registry.get? id with
  | none =>
    refine ⟨before, ?_, .of_open hopen⟩
    rw [serve, hget]
    exact h.isOrdered.get?_eq hmem
  | some connection =>
    rcases hall : connection.handleAll now server.backend with ⟨changed, handled, left⟩
    have hkinds : server.announced (.serve id now) = changed.toList := by
      simp only [announced, hget, hall]
    have hbackend : (server.serve id now).backend = left := by
      rw [serve_eq hget hall, notifyAll_eq]
    refine ⟨_, get?_serve h hget hall hmem, ?_⟩
    split
    · rename_i hid
      obtain ⟨hfound, hsame⟩ := Registry.get?_eq_some hget
      obtain rfl := h.isOrdered.eq_of_id_eq hfound hmem (hsame.trans hid.symm)
      subst hid
      exact explains_served (h.collecting _ hmem) hopen hall hkinds hbackend
    · rw [← hbackend]
      exact explains_pushed hopen hkinds

/-- Every close has a cause of its own. In every run of a server, over any connections and with any
network stack behind it, a step keeps every open connection under its id. If it leaves the
connection closed,
the stream of that connection has ended or failed to be read,
or a message on it was shorter than a type code or malformed for the request that it claims to be,
or a write to it failed or was not taken whole,
or a message to be sent to it, a reply or an event, is longer than a frame may be,
or it had been idle for too long.
So nothing that another peer sends, and nothing else that happens behind its back, closes a
connection whose stream takes every write whole, except by making an event longer than a frame may
be to which it is subscribed. -/
theorem closes_for_cause (hruns : server.Runs) (action : ServerAction)
    (hmem : before ∈ server.registry.connections) (hopen : before.isOpen = true) :
    ∃ after, (server.act action).registry.get? before.id = some after ∧
      (after.isOpen = false → server.Cause action before after ∧
        (action.peer? ≠ some before.id → (∀ now, action ≠ .closeIdle now) →
          before.outlet.IsAccepting →
          ∃ kind ∈ server.announced action, before.isSubscribed kind = true ∧
            ¬ (ServerMessage.event
              (Backend.currentEvent (server.act action).backend kind)).Fits)) := by
  have hsound := hruns.isSound
  have hordered := hsound.isOrdered
  change ∃ after, _ ∧ server.Explains action before after
  cases action with
  | accept inlet upcoming now =>
    refine ⟨before, (isSound_act hsound _).isOrdered.get?_eq ?_, .of_open hopen⟩
    change before ∈ (server.accept inlet { upcoming } now).2.registry.connections
    rcases server.accept_cases inlet { upcoming } now with ⟨input, -, haccept⟩ | ⟨-, -, haccept⟩
    · rw [haccept]
      exact List.mem_append_left _ hmem
    · rwa [haccept]
  | arrive id arrival | finish id | expect id upcoming =>
    refine ⟨_, hordered.get?_modify id (fun _ => rfl) hmem, .of_open ?_⟩
    split
    · exact hopen
    · exact hopen
  | serve id now => exact explains_serve hsound id now hmem hopen
  | notify kind =>
    refine ⟨before.pushed [Backend.currentEvent server.backend kind], ?_,
      explains_pushed hopen (rfl : server.announced (.notify kind) = [kind])⟩
    have hpushed := hordered.get?_map
      (Connection.pushed [Backend.currentEvent server.backend kind])
      (fun connection => (connection.moves_pushed _).continues.id_eq) hmem
    change (server.registry.publish _).2.get? before.id = _
    rw [Registry.publish, List.map_map]
    exact hpushed
  | closeIdle now =>
    change ∃ after, (server.closeIdle now).registry.get? before.id = some after ∧ _
    unfold closeIdle
    cases hlimit : server.config.idleLimit with
    | none => exact ⟨before, hordered.get?_eq hmem, .of_open hopen⟩
    | some limit =>
      refine ⟨_, hordered.get?_map _ (fun connection => by split <;> rfl) hmem, ?_⟩
      split
      · rename_i hexpires
        have hidle : before.isIdle now limit = true := (Bool.and_eq_true_iff.mp hexpires).2
        exact fun _ => ⟨.silent rfl hlimit hidle, fun _ hother => absurd rfl (hother now)⟩
      · exact .of_open hopen
  | collect =>
    refine ⟨before, ?_, .of_open hopen⟩
    change server.registry.collect.2.get? before.id = some before
    rw [hordered.get?_collect, hordered.get?_eq hmem]
    exact Option.filter_some_pos hopen

theorem Runs.foldl (h : server.Runs) (actions : List ServerAction) :
    (actions.foldl act server).Runs := by
  induction actions generalizing server with
  | nil => exact h
  | cons action actions ih => exact ih (h.step action)

/-- A server with two connections, on the first of which a message has come that is shorter than a
type code. -/
def unspoken : Server MemoryBackend :=
  [.accept {} [] 0, .accept {} [] 0, .arrive 1 (.data [0, 1, 9])].foldl act
    { config := {}, backend := {} }

theorem closes_for_cause_unspoken : unspoken.Runs ∧ ∃ before after,
    before ∈ unspoken.registry.connections ∧ before.isOpen = true ∧ before.id = 1 ∧
      (unspoken.act (.serve 1 5)).registry.get? 1 = some after ∧ after.isOpen = false ∧
      unspoken.Cause (.serve 1 5) before after ∧
      ((unspoken.act (.serve 1 5)).registry.get? 2).any (·.isOpen) = true := by
  have hruns : unspoken.Runs := (Runs.start _ _).foldl _
  have hsome : (unspoken.registry.get? 1).isSome = true := by decide +kernel
  have hopens : (unspoken.registry.get? 1).all (·.isOpen) = true := by decide +kernel
  have hcloses : ((unspoken.act (.serve 1 5)).registry.get? 1).all (!·.isOpen) = true := by
    decide +kernel
  obtain ⟨before, hget⟩ := Option.isSome_iff_exists.mp hsome
  rw [hget, Option.all_some] at hopens
  obtain ⟨hmem, hid⟩ := Registry.get?_eq_some hget
  obtain ⟨after, hfound, hcause⟩ := closes_for_cause hruns (.serve 1 5) hmem hopens
  rw [hid] at hfound
  rw [hfound, Option.all_some, Bool.not_eq_true'] at hcloses
  exact ⟨hruns, before, after, hmem, hopens, hid, hfound, hcloses, (hcause hcloses).1,
    by decide +kernel⟩

end Server

end MeshControl
