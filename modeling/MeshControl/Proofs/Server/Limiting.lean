import MeshControl.Proofs.Server.Causes
import MeshControl.Server.ControlSocket

/-!
The limit on connections is kept. Only accepting a peer opens a connection, and a peer is accepted
only while fewer connections are open than there may be; whatever else becomes of a registry leaves
no more of them open (`Registry.Narrows`). A closed connection that waits to be collected is not
counted, so it keeps nobody out. A `SocketAction` is anything that may happen to a control socket,
from one round of the accepting loop on, so a whole pass is a run of them (`exists_actions_poll`),
and what holds in every run holds in the midst of a pass too.
-/

namespace MeshControl

namespace Registry

variable {before after registry : Registry}

/-- What becomes of a registry that takes nobody in: ids stay in order, and no more connections are
open than before. -/
structure Narrows (before after : Registry) : Prop where
  isOrdered : before.IsOrdered → after.IsOrdered
  liveCount_le : after.liveCount ≤ before.liveCount

/-- Nothing that may be done to connections opens one of them. -/
theorem countP_isOpen_le_of_moves {earlier later : List Connection}
    (h : List.Forall₂ Connection.Moves earlier later) :
    later.countP (·.isOpen) ≤ earlier.countP (·.isOpen) := by
  induction h with
  | nil => exact Nat.le_refl 0
  | @cons connection next _ _ hmoves _ ih =>
    have hopen := hmoves.continues.isOpen
    rw [List.countP_cons, List.countP_cons]
    refine Nat.add_le_add ih ?_
    split
    · rename_i hnext
      exact Nat.le_of_eq (if_pos (hopen hnext)).symm
    · exact Nat.zero_le _

/-- Closed connections do not count, whether they are collected or not. -/
@[simp] theorem liveCount_collect (registry : Registry) :
    registry.collect.2.liveCount = registry.liveCount := by
  simp [collect, liveCount, List.countP_filter]

/-- A turn that gives no id takes nobody in. -/
theorem Turns.narrows (h : before.Turns after) (hnext : after.nextId = before.nextId) :
    before.Narrows after where
  isOrdered := h.isOrdered
  liveCount_le := by
    cases h with
    | grows => exact absurd hnext (Nat.succ_ne_self _)
    | moves hmoves => exact countP_isOpen_le_of_moves hmoves
    | shrinks => exact Nat.le_of_eq (liveCount_collect before)

theorem narrows_modify (h : registry.IsOrdered) (id : Nat) {change : Connection → Connection}
    (hchange : ∀ connection : Connection, connection.Moves (change connection)) :
    registry.Narrows (registry.modify id change) := by
  refine (turns_modify h id hchange).narrows ?_
  unfold modify
  split <;> rfl

theorem narrows_flush (registry : Registry) : registry.Narrows registry.flush.2 := by
  have hflush : registry.Turns registry.flush.2 :=
    .moves (moves_map fun connection _ =>
      (Connection.Step.stream connection.inlet connection.outlet.forget).moves)
  exact hflush.narrows rfl

end Registry

namespace Server

variable {β : Type} {config : ServerConfig} {server after : Server β}

/-- A server with given settings, which has no more open connections than they allow. -/
structure Within (config : ServerConfig) (server : Server β) : Prop where
  config_eq : server.config = config
  isOrdered : server.registry.IsOrdered
  liveCount_le : server.registry.liveCount ≤ config.maxConnections

theorem Within.start (config : ServerConfig) (backend : β) :
    Within config { config, backend } where
  config_eq := rfl
  isOrdered := ⟨.nil, by simp⟩
  liveCount_le := Nat.zero_le _

theorem Within.narrows (h : server.Within config) (hconfig : after.config = server.config)
    (hnarrows : server.registry.Narrows after.registry) : after.Within config where
  config_eq := hconfig.trans h.config_eq
  isOrdered := hnarrows.isOrdered h.isOrdered
  liveCount_le := Nat.le_trans hnarrows.liveCount_le h.liveCount_le

theorem Within.modify (h : server.Within config) (id : Nat) {change : Connection → Connection}
    (hchange : ∀ connection : Connection, connection.Moves (change connection)) :
    Within config { server with registry := server.registry.modify id change } :=
  h.narrows rfl (Registry.narrows_modify h.isOrdered id hchange)

theorem Within.closeIdle (h : server.Within config) (now : Nat) :
    (server.closeIdle now).Within config := by
  unfold Server.closeIdle
  split
  · exact h.narrows rfl ((Registry.turns_closeIdle ..).narrows rfl)
  · exact h

/-- A peer that is taken in takes the place that was left. -/
theorem Within.accept (h : server.Within config) (inlet : Inlet) (outlet : Outlet) (now : Nat) :
    (server.accept inlet outlet now).2.Within config := by
  rcases Nat.lt_or_ge server.registry.liveCount server.config.maxConnections with hplace | hfull
  · cases hinput : Buffer.withCapacity server.config.bufferSize with
    | error e =>
      rw [accept_of_noMemory hplace hinput]
      exact h
    | ok input =>
      have hordered := (turns_accept server inlet outlet now).isOrdered h.isOrdered
      rw [accept_of_room hplace hinput] at hordered ⊢
      refine ⟨h.config_eq, hordered, ?_⟩
      rw [h.config_eq] at hplace
      rw [Registry.liveCount, List.countP_append]
      exact hplace
  · rw [accept_of_full hfull]
    exact h

/-- What has been closed and not collected makes no difference to who is accepted. -/
theorem accept_collect (server : Server β) (inlet : Inlet) (outlet : Outlet) (now : Nat) :
    (server.collect.accept inlet outlet now).1 = (server.accept inlet outlet now).1 := by
  have hcount : server.collect.registry.liveCount = server.registry.liveCount :=
    Registry.liveCount_collect _
  rcases Nat.lt_or_ge server.registry.liveCount server.config.maxConnections with hplace | hfull
  · have hstill : server.collect.registry.liveCount < server.collect.config.maxConnections := by
      rw [hcount]
      exact hplace
    cases hinput : Buffer.withCapacity server.config.bufferSize with
    | error e =>
      rw [accept_of_noMemory hplace hinput,
        accept_of_noMemory hstill hinput]
    | ok input =>
      rw [accept_of_room hplace hinput,
        accept_of_room hstill hinput]
      rfl
  · rw [accept_of_full hfull, accept_of_full]
    rw [hcount]
    exact hfull

variable [Backend β]

theorem Within.notifyAll (h : server.Within config) (changed : EventSet) :
    (server.notifyAll changed).Within config := by
  refine h.narrows ?_ ((turns_notifyAll server changed).narrows ?_) <;> rw [notifyAll_eq]

theorem Within.serve (h : server.Within config) (id now : Nat) :
    (server.serve id now).Within config := by
  cases hget : server.registry.get? id with
  | none => rwa [Server.serve, hget]
  | some connection =>
    rcases hall : connection.handleAll now server.backend with ⟨changed, after, left⟩
    have hreplaced := Registry.turns_replace h.isOrdered (Registry.get?_eq_some hget).1
      (Connection.moves_of_handleAll_eq hall)
    have hhandled : Within config
        { server with registry := server.registry.replace after, backend := left } :=
      h.narrows rfl (hreplaced.narrows rfl)
    rw [serve_eq hget hall]
    exact hhandled.notifyAll changed

end Server

/-- Whether a peer has not been accepted yet. -/
def Peer.waits (peer : Peer) : Bool :=
  match peer.link with
  | .waiting .. => true
  | _ => false

/-- What may happen to a control socket. A peer may connect, send, leave and receive; the server
accepts one peer that waits, serves or publishes, or closes and collects; and anything that may be
done to a connection is done to one, closing among it, or there is no memory for a peer. -/
inductive SocketAction (β : Type) where
  | connect
  | send (number : Nat) (bytes : Bytes)
  | finish (number : Nat)
  | drop (number : Nat)
  | receive
  | unlink
  | advance (milliseconds : Nat)
  /-- Other sources turn out to be ready. -/
  | rouse (ready : List Source)
  | acceptPeer (number : Nat)
  /-- A peer that waits is given up, because there is no memory for it. -/
  | starve (number : Nat)
  | serve (id : Nat)
  | notify (kind : EventKind)
  | closeIdle
  | collect
  | change (id : Nat) (alter : Connection → Connection)
    (halter : ∀ connection : Connection, connection.Moves (alter connection))
  /-- The network stack behind the server changes. -/
  | shift (backend : β)

namespace ControlSocket

variable {β : Type} {config : ServerConfig} {socket : ControlSocket β}

@[simp] theorem server_wake (socket : ControlSocket β) (source : Source) :
    (socket.wake source).server = socket.server := by
  unfold wake
  split <;> rfl

@[simp] theorem peers_wake (socket : ControlSocket β) (source : Source) :
    (socket.wake source).peers = socket.peers := by
  unfold wake
  split <;> rfl

/-- What a peer does to its stream is done to its connection, or to nothing of the server's. -/
theorem within_modifyStream (h : socket.server.Within config) (number : Nat) (peer : Peer)
    (change : Inlet × Outlet → Inlet × Outlet) :
    (socket.modifyStream number peer change).server.Within config := by
  unfold modifyStream
  split
  · exact h
  · dsimp only
    split
    · rw [server_wake]
      exact h.modify _ fun connection => (Connection.Step.stream ..).moves
    · exact h
  · exact h

/-- A round of the accepting loop takes a peer that waits in, or drops it. -/
theorem acceptPeer_cases {number : Nat} {peer : Peer} {inlet : Inlet} {outlet : Outlet}
    (hpeer : socket.peers[number]? = some peer) (hlink : peer.link = .waiting inlet outlet) :
    (∃ input, Buffer.withCapacity socket.server.config.bufferSize = .ok input ∧
      socket.server.registry.liveCount < socket.server.config.maxConnections ∧
      (socket.acceptPeer number).server = { socket.server with
        registry.connections := socket.server.registry.connections ++
          [{ id := socket.server.registry.nextId, inlet, outlet, input
             lastActivity := socket.clock }]
        registry.nextId := socket.server.registry.nextId + 1 } ∧
      (socket.acceptPeer number).peers =
        socket.peers.set number { peer with link := .accepted socket.server.registry.nextId }) ∨
    ((socket.server.config.maxConnections ≤ socket.server.registry.liveCount ∨
        ∃ e, Buffer.withCapacity socket.server.config.bufferSize = .error e) ∧
      (socket.acceptPeer number).server = socket.server ∧
      (socket.acceptPeer number).peers =
        socket.peers.set number { peer with link := .refused }) := by
  obtain ⟨link, isPresent, isSending⟩ := peer
  obtain rfl : link = .waiting inlet outlet := hlink
  rcases Nat.lt_or_ge socket.server.registry.liveCount socket.server.config.maxConnections with
    hplace | hfull
  · cases hinput : Buffer.withCapacity socket.server.config.bufferSize with
    | error e =>
      refine .inr ⟨.inr ⟨e, rfl⟩, ?_⟩
      simp only [acceptPeer, hpeer, Server.accept_of_noMemory hplace hinput]
      exact ⟨rfl, rfl⟩
    | ok input =>
      refine .inl ⟨input, rfl, hplace, ?_⟩
      simp only [acceptPeer, hpeer, Server.accept_of_room hplace hinput]
      split
      · exact ⟨rfl, rfl⟩
      · rw [server_wake, peers_wake]
        exact ⟨rfl, rfl⟩
  · refine .inr ⟨.inl hfull, ?_⟩
    simp only [acceptPeer, hpeer, Server.accept_of_full hfull]
    exact ⟨rfl, rfl⟩

/-- Gives up a peer that waits, without a look at who is there. -/
def starve (socket : ControlSocket β) (number : Nat) : ControlSocket β :=
  match socket.peers[number]? with
  | some { link := .waiting _ _, isPresent, isSending } =>
    socket.setPeer number { link := .refused, isPresent, isSending }
  | _ => socket

theorem server_starve (socket : ControlSocket β) (number : Nat) :
    (socket.starve number).server = socket.server := by
  unfold starve
  split <;> rfl

theorem within_acceptPeer (h : socket.server.Within config) (number : Nat) :
    (socket.acceptPeer number).server.Within config := by
  unfold acceptPeer
  split
  · rename_i inlet outlet _ _ _
    have haccept := h.accept inlet outlet socket.clock
    split
    · rename_i accepted
      rw [accepted] at haccept
      dsimp only
      split
      · exact haccept
      · rw [server_wake]
        exact haccept
    · rename_i other
      rw [other] at haccept
      exact haccept
  · exact h

section

variable [Backend β]

def act (socket : ControlSocket β) : SocketAction β → ControlSocket β
  | .connect => socket.connect.2
  | .send number bytes => (socket.send number bytes).2
  | .finish number => (socket.finish number).2
  | .drop number => (socket.drop number).2
  | .receive => socket.receive.2
  | .unlink => socket.unlink.2
  | .advance milliseconds => socket.advance milliseconds
  | .rouse ready => { socket with ready }
  | .acceptPeer number => socket.acceptPeer number
  | .starve number => socket.starve number
  | .serve id => { socket with server := socket.server.serve id socket.clock }
  | .notify kind => { socket with server := (socket.server.notify kind).2 }
  | .closeIdle => { socket with server := socket.server.closeIdle socket.clock }
  | .collect => { socket with server := socket.server.collect }
  | .change id alter _ =>
    { socket with
      server := { socket.server with registry := socket.server.registry.modify id alter } }
  | .shift backend => { socket with server := { socket.server with backend } }

/-- Every action keeps the limit. -/
theorem within_act (h : socket.server.Within config) (action : SocketAction β) :
    (socket.act action).server.Within config := by
  cases action with
  | connect =>
    change (ControlSocket.wake _ _).server.Within config
    rw [server_wake]
    exact h
  | send number bytes =>
    change (socket.send number bytes).2.server.Within config
    unfold send
    split
    · exact h
    · split
      · split
        · exact h
        · exact within_modifyStream h ..
      · exact h
  | finish number =>
    change (socket.finish number).2.server.Within config
    unfold finish
    split
    · exact h
    · split
      · exact within_modifyStream h ..
      · exact h
  | drop number =>
    change (socket.drop number).2.server.Within config
    unfold drop
    split
    · exact h
    · split
      · exact within_modifyStream h ..
      · exact h
  | receive => exact h.narrows rfl (Registry.narrows_flush _)
  | unlink | advance | rouse => exact h
  | acceptPeer number => exact within_acceptPeer h number
  | starve number =>
    change (socket.starve number).server.Within config
    rw [server_starve]
    exact h
  | serve id => exact h.serve id socket.clock
  | notify kind => exact h.narrows rfl ((Registry.turns_publish ..).narrows rfl)
  | closeIdle => exact h.closeIdle socket.clock
  | collect => exact h.narrows rfl (Registry.Turns.shrinks.narrows rfl)
  | change id alter halter => exact h.modify id halter
  | shift backend => exact ⟨h.config_eq, h.isOrdered, h.liveCount_le⟩

theorem within_foldl (h : socket.server.Within config) (actions : List (SocketAction β)) :
    (actions.foldl act socket).server.Within config := by
  induction actions generalizing socket with
  | nil => exact h
  | cons action actions ih => exact ih (within_act h action)

/-- What a source that is served makes of a socket is made by actions. -/
theorem exists_actions_serve (socket : ControlSocket β) (source : Source) :
    ∃ actions : List (SocketAction β), socket.serve source = actions.foldl act socket := by
  cases source with
  | listener =>
    refine ⟨(List.range socket.peers.length).map .acceptPeer, ?_⟩
    rw [List.foldl_map]
    rfl
  | connection id => exact ⟨[.serve id], rfl⟩

theorem exists_actions_batch (socket : ControlSocket β) (batch : List Source) :
    ∃ actions : List (SocketAction β), batch.foldl serve socket = actions.foldl act socket := by
  induction batch generalizing socket with
  | nil => exact ⟨[], rfl⟩
  | cons source batch ih =>
    obtain ⟨first, hfirst⟩ := exists_actions_serve socket source
    obtain ⟨others, hothers⟩ := ih (socket.serve source)
    refine ⟨first ++ others, ?_⟩
    rw [List.foldl_cons, hothers, hfirst, List.foldl_append]

/-- A pass is a run of actions. -/
theorem exists_actions_poll (socket : ControlSocket β) :
    ∃ actions : List (SocketAction β), socket.poll.2 = actions.foldl act socket := by
  have htidy : socket.tidy =
      [.closeIdle, .collect, .rouse socket.tidy.ready].foldl act socket := rfl
  unfold poll
  cases hlimit : socket.tidy.server.config.maxEvents with
  | zero =>
    simp only [hlimit]
    exact ⟨_, htidy⟩
  | succ limit =>
    simp only [hlimit]
    obtain ⟨actions, hactions⟩ := exists_actions_batch
      { socket.tidy with ready := (socket.tidy.ready.splitAt (limit + 1)).2 }
      (socket.tidy.ready.splitAt (limit + 1)).1
    refine ⟨[.closeIdle, .collect, .rouse socket.tidy.ready] ++
      .rouse (socket.tidy.ready.splitAt (limit + 1)).2 :: actions, ?_⟩
    rw [List.foldl_append, ← htidy]
    exact hactions

end

/-- Whether the peer with a number waits. -/
def waitsAt (socket : ControlSocket β) (number : Nat) : Bool :=
  socket.peers[number]?.any (·.waits)

theorem exists_of_waitsAt {number : Nat} (h : socket.waitsAt number = true) :
    ∃ peer inlet outlet, socket.peers[number]? = some peer ∧
      peer.link = .waiting inlet outlet := by
  cases hpeer : socket.peers[number]? with
  | none => simp [waitsAt, hpeer] at h
  | some peer =>
    cases hlink : peer.link with
    | waiting inlet outlet => exact ⟨peer, inlet, outlet, rfl, hlink⟩
    | accepted | refused => simp [waitsAt, hpeer, Peer.waits, hlink] at h

/-- Where nobody waits, a round of the accepting loop changes nothing. -/
theorem acceptPeer_of_not_waitsAt {number : Nat} (h : socket.waitsAt number = false) :
    socket.acceptPeer number = socket := by
  unfold acceptPeer
  split
  · rename_i hpeer
    simp [waitsAt, hpeer, Peer.waits] at h
  · rfl

theorem waitsAt_of_set {after : ControlSocket β} {number : Nat} {peer : Peer}
    (hpeers : after.peers = socket.peers.set number peer) (hdone : peer.waits = false)
    (other : Nat) : after.waitsAt other = (other != number && socket.waitsAt other) := by
  unfold waitsAt
  rw [hpeers]
  by_cases hother : other = number
  · subst hother
    rw [List.getElem?_set_self']
    cases socket.peers[other]? <;> simp [hdone]
  · rw [List.getElem?_set_ne (Ne.symm hother)]
    simp [hother]

/-- A round of the accepting loop ends the wait of its own peer and of no other. -/
theorem waitsAt_acceptPeer (socket : ControlSocket β) (number other : Nat) :
    (socket.acceptPeer number).waitsAt other = (other != number && socket.waitsAt other) := by
  cases hwaits : socket.waitsAt number with
  | true =>
    obtain ⟨peer, inlet, outlet, hpeer, hlink⟩ := exists_of_waitsAt hwaits
    rcases acceptPeer_cases hpeer hlink with ⟨_, -, -, -, hpeers⟩ | ⟨-, -, hpeers⟩
    · exact waitsAt_of_set hpeers rfl other
    · exact waitsAt_of_set hpeers rfl other
  | false =>
    rw [acceptPeer_of_not_waitsAt hwaits]
    by_cases hother : other = number
    · simp [hother, hwaits]
    · simp [hother]

/-- A pass through the pending peers leaves none of them waiting. -/
theorem waitsAt_acceptAll (socket : ControlSocket β) (number : Nat) :
    socket.acceptAll.waitsAt number = false := by
  have hfold (numbers : List Nat) (socket : ControlSocket β) :
      (numbers.foldl acceptPeer socket).waitsAt number =
        (!numbers.contains number && socket.waitsAt number) := by
    induction numbers generalizing socket with
    | nil => rfl
    | cons first others ih =>
      rw [List.foldl_cons, ih, waitsAt_acceptPeer, List.contains_cons, Bool.not_or]
      cases others.contains number <;> simp [bne]
  rw [acceptAll, hfold]
  rcases Nat.lt_or_ge number socket.peers.length with hbound | hbeyond
  · simp [hbound]
  · simp [waitsAt, List.getElem?_eq_none hbeyond]

section

variable [Backend β]

/-- The limit on connections is never exceeded. Whatever happens to a server from its start, with
any settings and any network stack behind it, no more connections are open than its settings allow.
A peer that waits is taken in with a connection of its own behind the others, or it is dropped and
nothing else changes; and it is dropped only if as many connections are open as there may be, or if
there is no memory for its input. What has been closed and not collected keeps nobody out: to
collect it first makes no difference. A pass through the pending peers leaves none of them waiting,
and a pass of the server is itself made up of such happenings. -/
theorem liveCount_le_maxConnections (config : ServerConfig) (backend : β)
    (actions : List (SocketAction β)) :
    let now := actions.foldl act { server := { config, backend } }
    (now.server.config = config ∧ now.server.registry.liveCount ≤ config.maxConnections) ∧
    (∀ number peer inlet outlet, now.peers[number]? = some peer →
      peer.link = .waiting inlet outlet →
      let after := now.acceptPeer number
      (∃ input, after.server = { now.server with
          registry.connections := now.server.registry.connections ++
            [{ id := now.server.registry.nextId, inlet, outlet, input, lastActivity := now.clock }]
          registry.nextId := now.server.registry.nextId + 1 } ∧
        after.peers =
          now.peers.set number { peer with link := .accepted now.server.registry.nextId }) ∨
      (after.server = now.server ∧
        after.peers = now.peers.set number { peer with link := .refused } ∧
        (now.server.registry.liveCount = config.maxConnections ∨
          ∃ e, Buffer.withCapacity config.bufferSize = .error e))) ∧
    (∀ inlet outlet, (now.server.collect.accept inlet outlet now.clock).1 =
      (now.server.accept inlet outlet now.clock).1) ∧
    (∀ number, now.acceptAll.waitsAt number = false) ∧
    ∃ pass : List (SocketAction β), now.poll.2 = pass.foldl act now := by
  intro now
  have hwithin : now.server.Within config :=
    within_foldl (.start config backend) actions
  refine ⟨⟨hwithin.config_eq, hwithin.liveCount_le⟩, ?_,
    fun inlet outlet => now.server.accept_collect inlet outlet now.clock, now.waitsAt_acceptAll,
    now.exists_actions_poll⟩
  intro number peer inlet outlet hpeer hlink
  rcases acceptPeer_cases hpeer hlink with
    ⟨input, -, -, hserver, hpeers⟩ | ⟨hreason, hserver, hpeers⟩
  · exact .inl ⟨input, hserver, hpeers⟩
  · rw [hwithin.config_eq] at hreason
    exact .inr ⟨hserver, hpeers,
      hreason.imp_left fun hfull => Nat.le_antisymm hwithin.liveCount_le hfull⟩

/-- Of two peers the second finds no place. Then the first leaves, its connection is closed and not
collected, and a third peer comes. -/
def crowding : List (SocketAction MemoryBackend) :=
  [.connect, .connect, .acceptPeer 0, .acceptPeer 1, .drop 0, .serve 1, .connect]

/-- A server with place for one connection, and with a closed one. -/
def crowded : ControlSocket MemoryBackend :=
  crowding.foldl act { server := { config := { maxConnections := 1 }, backend := {} } }

theorem liveCount_le_maxConnections_crowded :
    crowded.server.registry.size = 1 ∧ crowded.server.registry.liveCount = 0 ∧
      crowded.waitsAt 1 = false ∧ crowded.waitsAt 2 = true ∧
      ∃ connection, connection.isOpen = true ∧
        (crowded.acceptPeer 2).server.registry.connections =
          crowded.server.registry.connections ++ [connection] := by
  have hcount : crowded.server.registry.liveCount = 0 := by decide +kernel
  have hwaits : crowded.waitsAt 2 = true := by decide +kernel
  obtain ⟨peer, inlet, outlet, hpeer, hlink⟩ := exists_of_waitsAt hwaits
  obtain ⟨-, hadmits, -⟩ :=
    liveCount_le_maxConnections { maxConnections := 1 } ({} : MemoryBackend) crowding
  refine ⟨by decide +kernel, hcount, by decide +kernel, hwaits, ?_⟩
  rcases hadmits 2 peer inlet outlet hpeer hlink with ⟨input, hserver, -⟩ | ⟨-, -, hreason⟩
  · exact ⟨_, rfl, congrArg (·.registry.connections) hserver⟩
  · -- The closed connection does not count, and there is memory for the input.
    rcases hreason with hfull | ⟨e, hinput⟩
    · exact absurd (hcount.symm.trans hfull) (by decide)
    · have hroom : (Buffer.withCapacity 100).toOption.isSome = true := by decide +kernel
      rw [hinput] at hroom
      cases hroom

end

end ControlSocket

end MeshControl
