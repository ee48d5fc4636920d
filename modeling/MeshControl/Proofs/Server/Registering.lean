import Mathlib.Data.List.Forall2
import Mathlib.Data.List.Nodup
import MeshControl.Proofs.Connection.Moving
import MeshControl.Server.Registry

/-!
The registry never confuses connections. In one go a registry takes in a new connection behind the
others, lets something be done to those that it has, or gives up the closed ones
(`Registry.Turns`). Ids therefore stay in order, each id finds the one connection that it was given
to, and an id whose connection is gone finds nothing ever after (`Registry.Precedes`).
`Registry.fanout` is the walk through the subscribers of a kind with any callback; publishing an
event is a case of it (`publish_eq_fanout`).
-/

namespace MeshControl

/-- The note of a send of an event to a connection. -/
def Push.attempt (event : Event) (connection : Connection) : Push where
  id := connection.id
  failure :=
    match Exchange.sendEvent event connection with
    | .ok _ _ => none
    | .error e _ => some e

/-- A push is a send to a connection that is open and subscribed. -/
theorem Connection.push_eq (connection : Connection) (event : Event) :
    connection.push event =
      if connection.receives event.kind then
        (some (.attempt event connection), (Exchange.sendEvent event).leaves connection)
      else (none, connection) := by
  unfold push Push.attempt Exchange.leaves
  split
  · cases Exchange.sendEvent event connection <;> rfl
  · rfl

namespace Registry

/-- What may become of a registry in one go. -/
inductive Turns (before : Registry) : Registry → Prop where
  | grows {connection : Connection} (hid : connection.id = before.nextId)
    (hlacks : connection.Lacks) :
    Turns before ⟨before.connections ++ [connection], before.nextId + 1⟩
  | moves {connections : List Connection}
    (hmoves : List.Forall₂ Connection.Moves before.connections connections) :
    Turns before { before with connections }
  | shrinks : Turns before before.collect.2

/-- Ids are given in increasing order, and the next one is above them all. -/
structure IsOrdered (registry : Registry) : Prop where
  increasing : (registry.connections.map Connection.id).Pairwise (· < ·)
  lt_nextId : ∀ connection ∈ registry.connections, connection.id < registry.nextId

/-- A later registry holds connections of an earlier one, to which something may have been done, and
others whose ids had not been given then. -/
structure Precedes (before after : Registry) : Prop where
  nextId_le : before.nextId ≤ after.nextId
  origin : ∀ connection ∈ after.connections,
    (∃ earlier ∈ before.connections, earlier.Moves connection) ∨ before.nextId ≤ connection.id

variable {before middle after registry : Registry} {connection other : Connection}

section

variable {earlier later : List Connection}

theorem exists_moves_of_mem (h : List.Forall₂ Connection.Moves earlier later) :
    ∀ next ∈ later, ∃ connection ∈ earlier, connection.Moves next := by
  induction h with
  | nil => simp
  | cons hfirst _ ih =>
    refine List.forall_mem_cons.mpr ⟨⟨_, List.mem_cons_self .., hfirst⟩, fun next hnext => ?_⟩
    obtain ⟨connection, hmem, hmoves⟩ := ih next hnext
    exact ⟨connection, List.mem_cons_of_mem _ hmem, hmoves⟩

theorem map_id_eq_of_moves (h : List.Forall₂ Connection.Moves earlier later) :
    later.map Connection.id = earlier.map Connection.id := by
  induction h with
  | nil => rfl
  | cons hfirst _ ih => rw [List.map_cons, List.map_cons, ih, hfirst.continues.id_eq]

theorem moves_map {change : Connection → Connection}
    (h : ∀ connection ∈ earlier, connection.Moves (change connection)) :
    List.Forall₂ Connection.Moves earlier (earlier.map change) :=
  List.forall₂_map_right_iff.mpr (List.forall₂_same.mpr h)

end

/-- In an ordered registry an id belongs to one connection. -/
theorem IsOrdered.eq_of_id_eq (h : registry.IsOrdered)
    (hconnection : connection ∈ registry.connections) (hother : other ∈ registry.connections)
    (hid : connection.id = other.id) : connection = other :=
  List.inj_on_of_nodup_map (h.increasing.imp Nat.ne_of_lt) hconnection hother hid

theorem get?_eq_none_iff {id : Nat} :
    registry.get? id = none ↔ ∀ connection ∈ registry.connections, connection.id ≠ id := by
  simp only [get?, List.find?_eq_none, beq_iff_eq, ne_eq]

theorem get?_eq_some {id : Nat} (h : registry.get? id = some connection) :
    connection ∈ registry.connections ∧ connection.id = id :=
  ⟨List.mem_of_find?_eq_some h, by simpa using List.find?_some h⟩

/-- An ordered registry finds a connection under its id. -/
theorem IsOrdered.get?_eq (h : registry.IsOrdered) (hmem : connection ∈ registry.connections) :
    registry.get? connection.id = some connection := by
  cases hfound : registry.get? connection.id with
  | none => exact absurd rfl (get?_eq_none_iff.mp hfound connection hmem)
  | some found =>
    obtain ⟨hother, hid⟩ := get?_eq_some hfound
    rw [h.eq_of_id_eq hother hmem hid]

/-- A change of all connections is found where the connections were. -/
theorem IsOrdered.get?_map (h : registry.IsOrdered) (change : Connection → Connection)
    (hchange : ∀ connection : Connection, (change connection).id = connection.id)
    (hmem : connection ∈ registry.connections) :
    get? { registry with connections := registry.connections.map change } connection.id =
      some (change connection) := by
  have hids : Connection.id ∘ change = Connection.id := funext hchange
  have hordered : IsOrdered { registry with connections := registry.connections.map change } := by
    refine ⟨by rw [List.map_map, hids]; exact h.increasing, fun other hother => ?_⟩
    obtain ⟨earlier, hearlier, rfl⟩ := List.mem_map.mp hother
    rw [hchange]
    exact h.lt_nextId earlier hearlier
  rw [← hchange connection]
  exact hordered.get?_eq (List.mem_map_of_mem hmem)

/-- Collecting leaves the open connections as they are, and none of the closed ones. -/
theorem IsOrdered.get?_collect (h : registry.IsOrdered) (id : Nat) :
    registry.collect.2.get? id = (registry.get? id).filter (·.isOpen) := by
  cases hfound : registry.get? id with
  | none =>
    rw [get?_eq_none_iff] at hfound
    rw [Option.filter_none, get?_eq_none_iff]
    exact fun connection hmem => hfound connection (List.mem_filter.mp hmem).1
  | some connection =>
    obtain ⟨hmem, rfl⟩ := get?_eq_some hfound
    cases hkept : registry.collect.2.get? connection.id with
    | none =>
      have hclosed : ¬ connection.isOpen = true := fun hopen =>
        get?_eq_none_iff.mp hkept connection (List.mem_filter.mpr ⟨hmem, hopen⟩) rfl
      exact (Option.filter_some_neg (Bool.eq_false_iff.mpr hclosed)).symm
    | some kept =>
      obtain ⟨hstill, hid⟩ := get?_eq_some hkept
      obtain ⟨hother, hopen⟩ := List.mem_filter.mp hstill
      obtain rfl := h.eq_of_id_eq hother hmem hid
      exact (Option.filter_some_pos hopen).symm

theorem size_collect (registry : Registry) :
    registry.collect.1 + registry.collect.2.size = registry.size := by
  have hsplit := List.length_eq_countP_add_countP (p := (·.isOpen)) (l := registry.connections)
  simp only [List.countP_eq_length_filter, Bool.not_eq_true, Bool.decide_eq_false] at hsplit
  simp only [collect, size, List.countP_eq_length_filter]
  omega

theorem Turns.isOrdered (hturns : before.Turns after) (h : before.IsOrdered) :
    after.IsOrdered := by
  obtain ⟨hincreasing, hlt⟩ := h
  cases hturns with
  | @grows connection hid =>
    constructor
    · rw [List.map_append, List.pairwise_append]
      refine ⟨hincreasing, List.pairwise_singleton .., ?_⟩
      intro first hfirst last hlast
      obtain ⟨earlier, hearlier, rfl⟩ := List.mem_map.mp hfirst
      rw [List.map_singleton, List.mem_singleton] at hlast
      rw [hlast, hid]
      exact hlt earlier hearlier
    · intro later hlater
      rcases List.mem_append.mp hlater with hold | hnew
      · exact Nat.lt_succ_of_lt (hlt later hold)
      · rw [List.mem_singleton.mp hnew, hid]
        exact Nat.lt_succ_self _
  | moves hmoves =>
    constructor
    · rw [map_id_eq_of_moves hmoves]
      exact hincreasing
    · intro later hlater
      obtain ⟨earlier, hearlier, hcame⟩ := exists_moves_of_mem hmoves later hlater
      rw [hcame.continues.id_eq]
      exact hlt earlier hearlier
  | shrinks =>
    exact ⟨hincreasing.sublist (List.filter_sublist.map _), fun later hlater =>
      hlt later (List.mem_filter.mp hlater).1⟩

theorem Precedes.refl (registry : Registry) : registry.Precedes registry where
  nextId_le := Nat.le_refl _
  origin connection hmem := .inl ⟨connection, hmem, .refl connection⟩

theorem Precedes.trans (hfirst : before.Precedes middle) (hsecond : middle.Precedes after) :
    before.Precedes after where
  nextId_le := Nat.le_trans hfirst.nextId_le hsecond.nextId_le
  origin connection hmem := by
    rcases hsecond.origin connection hmem with ⟨recent, hrecent, hmoves⟩ | hnew
    · rcases hfirst.origin recent hrecent with ⟨earlier, hearlier, hcame⟩ | hlater
      · exact .inl ⟨earlier, hearlier, hcame.trans hmoves⟩
      · exact .inr (hmoves.continues.id_eq ▸ hlater)
    · exact .inr (Nat.le_trans hfirst.nextId_le hnew)

theorem Turns.precedes (hturns : before.Turns after) : before.Precedes after := by
  cases hturns with
  | grows hid =>
    refine ⟨Nat.le_succ _, fun later hlater => ?_⟩
    rcases List.mem_append.mp hlater with hold | hnew
    · exact .inl ⟨later, hold, .refl later⟩
    · rw [List.mem_singleton.mp hnew, hid]
      exact .inr (Nat.le_refl _)
  | moves hmoves =>
    exact ⟨Nat.le_refl _, fun later hlater => .inl (exists_moves_of_mem hmoves later hlater)⟩
  | shrinks =>
    exact ⟨Nat.le_refl _, fun later hlater =>
      .inl ⟨later, (List.mem_filter.mp hlater).1, .refl later⟩⟩

/-- Two connections with one id, the later of which is held when the earlier one was or afterwards,
are one connection. -/
theorem Precedes.moves (h : before.Precedes after) (hordered : before.IsOrdered)
    (hconnection : connection ∈ before.connections) (hother : other ∈ after.connections)
    (hid : other.id = connection.id) : connection.Moves other := by
  rcases h.origin other hother with ⟨earlier, hearlier, hmoves⟩ | hnew
  · have hsame := hordered.eq_of_id_eq hearlier hconnection
      (hmoves.continues.id_eq.symm.trans hid)
    exact hsame ▸ hmoves
  · have hlt := hordered.lt_nextId connection hconnection
    omega

/-- An id that has been given and finds nothing will never find anything. -/
theorem Precedes.get?_eq_none (h : before.Precedes after) {id : Nat} (hgiven : id < before.nextId)
    (hnone : before.get? id = none) : after.get? id = none := by
  rw [get?_eq_none_iff] at hnone ⊢
  rintro later hlater rfl
  rcases h.origin later hlater with ⟨earlier, hearlier, hmoves⟩ | hnew
  · exact hnone earlier hearlier hmoves.continues.id_eq.symm
  · omega

/-- Lets a callback at every open connection that is subscribed to a kind, in the order of their
ids, and counts them. -/
def fanout {σ : Type} (registry : Registry) (kind : EventKind)
    (send : Connection → σ → Connection × σ) (state : σ) : Nat × Registry × σ :=
  let (count, connections, state) := walk registry.connections state
  (count, { registry with connections }, state)
where
  walk : List Connection → σ → Nat × List Connection × σ
    | [], state => (0, [], state)
    | connection :: connections, state =>
      if connection.receives kind then
        let (connection, state) := send connection state
        let (count, connections, state) := walk connections state
        (count + 1, connection :: connections, state)
      else
        let (count, connections, state) := walk connections state
        (count, connection :: connections, state)

/-- Sends an event and takes a note of it, as a callback. -/
def sending (event : Event) (connection : Connection) (pushes : List Push) :
    Connection × List Push :=
  ((Exchange.sendEvent event).leaves connection, pushes ++ [.attempt event connection])

/-- Sending is let at each subscriber once, in the order of their ids, and what it does to one
depends on nothing that it has done to the others. -/
theorem walk_sending (kind : EventKind) (event : Event) (connections : List Connection)
    (pushes : List Push) :
    fanout.walk kind (sending event) connections pushes =
      let subscribers := connections.filter (·.receives kind)
      (subscribers.length,
        connections.map fun connection =>
          if connection.receives kind then (Exchange.sendEvent event).leaves connection
          else connection,
        pushes ++ subscribers.map (.attempt event)) := by
  induction connections generalizing pushes with
  | nil => simp [fanout.walk]
  | cons connection connections ih =>
    cases hreceives : connection.receives kind with
    | false => simp [fanout.walk, hreceives, ih]
    | true => simp [fanout.walk, hreceives, ih, sending]

/-- To publish an event is to let a send of it at the subscribers of its kind. -/
theorem publish_eq_fanout (registry : Registry) (event : Event) :
    registry.fanout event.kind (sending event) [] =
      let (pushes, after) := registry.publish event
      (pushes.length, after, pushes) := by
  have hpushes (connections : List Connection) :
      (connections.map (·.push event)).filterMap Prod.fst =
        (connections.filter (·.receives event.kind)).map (.attempt event) := by
    induction connections with
    | nil => rfl
    | cons connection connections ih =>
      rw [List.map_cons, List.filterMap_cons, ih, Connection.push_eq]
      cases hreceives : connection.receives event.kind <;> simp [hreceives]
  have hafter (connection : Connection) : (connection.push event).2 =
      if connection.receives event.kind then (Exchange.sendEvent event).leaves connection
      else connection := by
    rw [Connection.push_eq]
    split <;> rfl
  simp only [fanout, walk_sending, publish, hpushes, List.map_map, List.length_map,
    List.nil_append, Function.comp_def, hafter]

theorem moves_walk {σ : Type} {kind : EventKind} {send : Connection → σ → Connection × σ}
    (hsend : ∀ (connection : Connection) (state : σ), connection.Moves (send connection state).1)
    (connections : List Connection) (state : σ) :
    List.Forall₂ Connection.Moves connections (fanout.walk kind send connections state).2.1 := by
  induction connections generalizing state with
  | nil => exact .nil
  | cons connection connections ih =>
    unfold fanout.walk
    split
    · exact .cons (hsend connection state) (ih _)
    · exact .cons (.refl connection) (ih _)

theorem Turns.refl (registry : Registry) : registry.Turns registry :=
  .moves (List.forall₂_same.mpr fun connection _ => .refl connection)

theorem turns_replace (h : registry.IsOrdered) (hmem : connection ∈ registry.connections)
    (hmoves : connection.Moves other) : registry.Turns (registry.replace other) := by
  refine .moves (moves_map fun current hcurrent => ?_)
  split
  · rename_i hid
    rw [h.eq_of_id_eq hcurrent hmem (hid.trans hmoves.continues.id_eq)]
    exact hmoves
  · exact .refl current

theorem turns_modify (h : registry.IsOrdered) (id : Nat) {change : Connection → Connection}
    (hchange : ∀ connection : Connection, connection.Moves (change connection)) :
    registry.Turns (registry.modify id change) := by
  unfold modify
  cases hfound : registry.get? id with
  | none => exact .refl registry
  | some connection => exact turns_replace h (get?_eq_some hfound).1 (hchange connection)

theorem IsOrdered.get?_modify (h : registry.IsOrdered) (id : Nat)
    {change : Connection → Connection}
    (hchange : ∀ connection : Connection, (change connection).id = connection.id)
    (hmem : connection ∈ registry.connections) :
    (registry.modify id change).get? connection.id =
      some (if connection.id = id then change connection else connection) := by
  unfold modify
  cases hfound : registry.get? id with
  | none =>
    rw [if_neg (get?_eq_none_iff.mp hfound connection hmem)]
    exact h.get?_eq hmem
  | some found =>
    obtain ⟨hother, rfl⟩ := get?_eq_some hfound
    refine (h.get?_map _ (fun other => ?_) hmem).trans ?_
    · split
      · rename_i hid
        exact hid.symm
      · rfl
    · rw [hchange]
      by_cases hid : connection.id = found.id
      · rw [if_pos hid, if_pos hid, h.eq_of_id_eq hmem hother hid]
      · rw [if_neg hid, if_neg hid]

theorem turns_closeIdle (registry : Registry) (now limit : Nat) :
    registry.Turns (registry.closeIdle now limit).2 := by
  refine .moves (moves_map fun connection _ => ?_)
  split
  · exact Connection.Step.close.moves
  · exact .refl connection

theorem turns_publish (registry : Registry) (event : Event) :
    registry.Turns (registry.publish event).2 := by
  have hpushed := moves_map fun connection (_ : connection ∈ registry.connections) =>
    connection.moves_push event
  rw [← Function.comp_def, ← List.map_map] at hpushed
  exact .moves hpushed

/-- An allocation that succeeds gives the next id to a new connection behind the others. -/
theorem turns_allocate {inlet : Inlet} {outlet : Outlet} {capacity now id : Nat}
    (h : registry.allocate inlet outlet capacity now = .ok (id, after)) :
    id = registry.nextId ∧ after.nextId = registry.nextId + 1 ∧ registry.Turns after ∧
      after.connections.map Connection.id = registry.connections.map Connection.id ++ [id] := by
  unfold allocate at h
  cases hinput : Buffer.withCapacity capacity with
  | error e =>
    rw [hinput] at h
    cases h
  | ok input =>
    rw [hinput] at h
    obtain ⟨rfl, rfl⟩ := Prod.mk.inj (Except.ok.inj h)
    refine ⟨rfl, rfl, .grows rfl ?_, by rw [List.map_append]; rfl⟩
    rw [Connection.Lacks, ← Buffer.length_filled, Buffer.filled_withCapacity hinput]
    exact Nat.zero_lt_two

end Registry

/-- What may be done to a registry. A connection that is got by its id may be changed by anything
that may be done to it, closing among it, and so may those that a callback is let at. -/
inductive RegistryAction : Type 1 where
  | allocate (inlet : Inlet) (outlet : Outlet) (capacity now : Nat)
  | change (id : Nat) (alter : Connection → Connection)
    (halter : ∀ connection : Connection, connection.Moves (alter connection))
  | closeIdle (now limit : Nat)
  | fanout {σ : Type} (kind : EventKind) (send : Connection → σ → Connection × σ) (state : σ)
    (hsend : ∀ (connection : Connection) (state : σ), connection.Moves (send connection state).1)
  | collect

/-- A registry, and the ids that it has given, in the order in which it gave them. -/
structure RegistryHistory where
  registry : Registry := {}
  issued : List Nat := []

namespace RegistryHistory

def allocate (history : RegistryHistory) (inlet : Inlet) (outlet : Outlet) (capacity now : Nat) :
    RegistryHistory :=
  match history.registry.allocate inlet outlet capacity now with
  | .ok (id, registry) => { registry, issued := history.issued ++ [id] }
  | .error _ => history

def act (history : RegistryHistory) : RegistryAction → RegistryHistory
  | .allocate inlet outlet capacity now => history.allocate inlet outlet capacity now
  | .change id alter _ => { history with registry := history.registry.modify id alter }
  | .closeIdle now limit =>
    { history with registry := (history.registry.closeIdle now limit).2 }
  | .fanout kind send state _ =>
    { history with registry := (history.registry.fanout kind send state).2.1 }
  | .collect => { history with registry := history.registry.collect.2 }

/-- The ids that were given count up from one, and those that are still held are in their order. -/
structure Kept (history : RegistryHistory) : Prop where
  isOrdered : history.registry.IsOrdered
  issued_eq : history.issued = List.range' 1 history.issued.length
  nextId_eq : history.registry.nextId = history.issued.length + 1
  ids_sublist : (history.registry.connections.map Connection.id).Sublist history.issued

variable {history : RegistryHistory}

theorem Kept.start : Kept {} where
  isOrdered := ⟨.nil, by simp⟩
  issued_eq := rfl
  nextId_eq := rfl
  ids_sublist := .slnil

/-- What becomes of a registry without a new id keeps the account of the ids. -/
theorem Kept.of_turns (h : history.Kept) {registry : Registry}
    (hturns : history.registry.Turns registry)
    (hnext : registry.nextId = history.registry.nextId) : Kept { history with registry } where
  isOrdered := hturns.isOrdered h.isOrdered
  issued_eq := h.issued_eq
  nextId_eq := hnext.trans h.nextId_eq
  ids_sublist := by
    cases hturns with
    | grows => exact absurd hnext (Nat.succ_ne_self _)
    | moves hmoves =>
      rw [Registry.map_id_eq_of_moves hmoves]
      exact h.ids_sublist
    | shrinks => exact (List.filter_sublist.map _).trans h.ids_sublist

theorem Kept.allocate (h : history.Kept) (inlet : Inlet) (outlet : Outlet) (capacity now : Nat) :
    let after := history.allocate inlet outlet capacity now
    history.registry.Turns after.registry ∧ after.Kept ∧ history.issued <+: after.issued := by
  unfold RegistryHistory.allocate
  cases hallocate : history.registry.allocate inlet outlet capacity now with
  | error e => exact ⟨.refl _, h, List.prefix_refl _⟩
  | ok allocated =>
    obtain ⟨id, registry⟩ := allocated
    obtain ⟨rfl, hnext, hturns, hids⟩ := Registry.turns_allocate hallocate
    refine ⟨hturns, ⟨hturns.isOrdered h.isOrdered, ?_, ?_, ?_⟩, List.prefix_append ..⟩
    · rw [List.length_append, List.length_singleton, List.range'_concat, ← h.issued_eq, h.nextId_eq]
      simp [Nat.add_comm]
    · rw [hnext, h.nextId_eq, List.length_append, List.length_singleton]
    · rw [hids]
      exact h.ids_sublist.append (.refl _)

/-- An action is a turn of the registry. It keeps the account of the ids and gives at most one. -/
theorem Kept.act (h : history.Kept) (action : RegistryAction) :
    history.registry.Turns (history.act action).registry ∧ (history.act action).Kept ∧
      history.issued <+: (history.act action).issued := by
  cases action with
  | allocate inlet outlet capacity now => exact h.allocate inlet outlet capacity now
  | change id alter halter =>
    have hturns := Registry.turns_modify h.isOrdered id halter
    refine ⟨hturns, h.of_turns hturns ?_, List.prefix_refl _⟩
    unfold Registry.modify
    split <;> rfl
  | closeIdle now limit =>
    have hturns := history.registry.turns_closeIdle now limit
    exact ⟨hturns, h.of_turns hturns rfl, List.prefix_refl _⟩
  | fanout kind send state hsend =>
    have hturns : history.registry.Turns (history.registry.fanout kind send state).2.1 :=
      .moves (Registry.moves_walk hsend history.registry.connections state)
    exact ⟨hturns, h.of_turns hturns rfl, List.prefix_refl _⟩
  | collect => exact ⟨.shrinks, h.of_turns .shrinks rfl, List.prefix_refl _⟩

/-- What a history comes to keeps the account of the ids, and follows upon what it was. -/
theorem Kept.foldl (h : history.Kept) (actions : List RegistryAction) :
    history.registry.Precedes (actions.foldl RegistryHistory.act history).registry ∧
      (actions.foldl RegistryHistory.act history).Kept ∧
      history.issued <+: (actions.foldl RegistryHistory.act history).issued := by
  induction actions generalizing history with
  | nil => exact ⟨.refl _, h, List.prefix_refl _⟩
  | cons action actions ih =>
    obtain ⟨hturns, hkept, hissued⟩ := h.act action
    obtain ⟨hprecedes, hlast, hmore⟩ := ih hkept
    exact ⟨hturns.precedes.trans hprecedes, hlast, hissued.trans hmore⟩

/-- The registry never confuses connections. Whatever is done to a registry that starts empty, now
and later on:
every connection is found under its own id;
the ids that were given count up from one without a gap, and the next one is a machine word as long
as fewer than `maxSize` were given;
the connections are held in the order in which their ids were given;
no id is given twice, and one whose connection is gone finds nothing any more;
a connection that is held later under the same id has had something done to it at most, so it is not
open if it was closed, and has kept every subscription;
and collecting removes the closed connections, tells how many they were, and leaves every open one
as it was. -/
theorem never_confuses (actions more : List RegistryAction) :
    let now := actions.foldl act {}
    let later := more.foldl act now
    (∀ connection ∈ now.registry.connections,
      now.registry.get? connection.id = some connection) ∧
    (now.issued = List.range' 1 now.issued.length ∧
      now.registry.nextId = now.issued.length + 1 ∧
      (now.issued.length < maxSize → now.registry.nextId ≤ maxSize)) ∧
    (now.registry.connections.map Connection.id).Sublist now.issued ∧
    (now.issued <+: later.issued ∧ later.issued.Nodup ∧
      ∀ id ∈ now.issued, now.registry.get? id = none → later.registry.get? id = none) ∧
    (∀ before ∈ now.registry.connections, ∀ after ∈ later.registry.connections,
      after.id = before.id → before.Moves after ∧
        (before.isOpen = false → after.isOpen = false) ∧
        ∀ kind, before.isSubscribed kind = true → after.isSubscribed kind = true) ∧
    (now.registry.collect.1 + now.registry.collect.2.size = now.registry.size ∧
      now.registry.collect.2.nextId = now.registry.nextId ∧
      ∀ id, now.registry.collect.2.get? id = (now.registry.get? id).filter (·.isOpen)) := by
  intro now later
  obtain ⟨-, hnow, -⟩ := Kept.start.foldl actions
  obtain ⟨hprecedes, hlater, hissued⟩ := hnow.foldl more
  refine ⟨fun connection hmem => hnow.isOrdered.get?_eq hmem,
    ⟨hnow.issued_eq, hnow.nextId_eq, fun hbound => hnow.nextId_eq ▸ hbound⟩, hnow.ids_sublist,
    ⟨hissued, ?_, fun id hid hgone => hprecedes.get?_eq_none ?_ hgone⟩, ?_,
    now.registry.size_collect, rfl, hnow.isOrdered.get?_collect⟩
  · rw [hlater.issued_eq]
    exact List.nodup_range'
  · rw [hnow.issued_eq, List.mem_range'_1] at hid
    rw [hnow.nextId_eq]
    omega
  · intro before hbefore after hafter hid
    have hmoves := hprecedes.moves hnow.isOrdered hbefore hafter hid
    obtain ⟨-, hopen, hsubscribed⟩ := hmoves.continues
    refine ⟨hmoves, fun hclosed => ?_, hsubscribed⟩
    rw [Bool.eq_false_iff] at hclosed ⊢
    exact fun hreopened => hclosed (hopen hreopened)

/-- A peer is accepted, then one for whose input there is no memory, and then another. That one is
closed and collected before the next peer comes. -/
def collecting : List RegistryAction :=
  [.allocate {} {} 4 0, .allocate {} {} (maxCapacity + 1) 0, .allocate {} {} 0 1,
    .change 2 Connection.close fun _ => Connection.Step.close.moves, .collect,
    .allocate {} {} 0 2]

theorem never_confuses_collecting :
    let now := collecting.foldl act {}
    now.issued = [1, 2, 3] ∧ now.registry.connections.map Connection.id = [1, 3] ∧
      now.registry.nextId = 4 ∧
      ∀ more : List RegistryAction, (more.foldl act now).registry.get? 2 = none := by
  intro now
  have hissued : now.issued = [1, 2, 3] := by decide +kernel
  have hgone : now.registry.get? 2 = none := by
    rw [← Option.isNone_iff_eq_none]
    decide +kernel
  refine ⟨hissued, by decide +kernel, by decide +kernel, fun more => ?_⟩
  obtain ⟨-, -, -, ⟨-, -, hnever⟩, -⟩ := never_confuses collecting more
  exact hnever 2 (by rw [hissued]; decide) hgone

end RegistryHistory

end MeshControl
