import MeshControl.Proofs.Connection.Draining
import MeshControl.Server.Basic

/-!
Subscribers converge. A server moves by its own steps and by what happens on the streams of its
peers, in any order. As long as every reply is taken whole, each open connection that is subscribed
to a kind of events has been sent the current value of that kind last, whatever becomes of the
events that are pushed to others. Inside a drain this holds only outside the kinds that have
changed; publishing them one by one restores it (`UpToDateOutside.notify`).
-/

namespace MeshControl

theorem EventSet.mem_toList {set : EventSet} {kind : EventKind} :
    kind ∈ set.toList ↔ set.contains kind = true := by
  have hall : kind ∈ EventKind.all := by cases kind <;> decide
  simp only [toList, List.mem_filter, hall, true_and]

/-- A step of a server over its streams. -/
inductive ServerAction where
  /-- A peer with some bytes under way asks to be accepted. -/
  | accept (inlet : Inlet) (upcoming : List Acceptance) (now : Nat)
  /-- Something arrives on the stream of a connection. -/
  | arrive (id : Nat) (arrival : Arrival)
  /-- The stream of a connection ends after what has arrived. -/
  | finish (id : Nat)
  /-- It turns out how the coming writes to a connection will be taken. -/
  | expect (id : Nat) (upcoming : List Acceptance)
  | serve (id now : Nat)
  | notify (kind : EventKind)
  | closeIdle (now : Nat)
  | collect

namespace Connection

variable {connection after : Connection} {event : Event}

theorem push_cases (connection : Connection) (event : Event) :
    connection.receives event.kind = false ∧ (connection.push event).2 = connection ∨
      ∃ whole, connection.Sends (.event event) whole (connection.push event).2 := by
  unfold push
  cases hreceives : connection.receives event.kind with
  | false => exact .inl ⟨rfl, rfl⟩
  | true =>
    right
    rw [if_pos rfl]
    rcases Exchange.sendMessage_cases connection (.event event) (receives_iff.mp hreceives).1 with
      ⟨after, hsent, hsends⟩ | ⟨e, after, hsent, hsends⟩
    · change Exchange.sendEvent event connection = _ at hsent
      rw [hsent]
      exact ⟨true, hsends⟩
    · change Exchange.sendEvent event connection = _ at hsent
      rw [hsent]
      exact ⟨false, hsends⟩

theorem log_suffix_push (connection : Connection) (event : Event) :
    connection.outlet.log <:+ (connection.push event).2.outlet.log := by
  rcases push_cases connection event with ⟨-, hsame⟩ | ⟨whole, hsends⟩
  · simp only [hsame, List.suffix_refl]
  · exact hsends.log_suffix

section

variable {β : Type} [Backend β] {backend : β}

theorem upToDate_push_self (connection : Connection) (backend : β) (kind : EventKind) :
    (connection.push (Backend.currentEvent backend kind)).2.UpToDate backend kind := by
  rcases push_cases connection (Backend.currentEvent backend kind) with
    ⟨hreceives, hsame⟩ | ⟨whole, hsends⟩
  · rw [Backend.kind_currentEvent] at hreceives
    rw [hsame]
    intro h
    rw [hreceives] at h
    cases h
  · exact hsends.upToDate_self

theorem UpToDate.push {kind : EventKind} (event : Event) (hkind : event.kind ≠ kind)
    (h : connection.UpToDate backend kind) : (connection.push event).2.UpToDate backend kind := by
  rcases push_cases connection event with ⟨-, hsame⟩ | ⟨whole, hsends⟩
  · rwa [hsame]
  · exact hsends.upToDate_of_event hkind h

end

end Connection

namespace Server

variable {β : Type} [Backend β]

/-- Changes the connection with an id. -/
def modify (server : Server β) (id : Nat) (change : Connection → Connection) : Server β :=
  { server with registry := server.registry.modify id change }

/-- The server after a step. -/
def act (server : Server β) : ServerAction → Server β
  | .accept inlet upcoming now => (server.accept inlet { upcoming } now).2
  | .arrive id arrival => server.modify id fun c => { c with inlet := c.inlet.push arrival }
  | .finish id => server.modify id fun c => { c with inlet := c.inlet.finish }
  | .expect id upcoming => server.modify id fun c => { c with outlet := { c.outlet with upcoming } }
  | .serve id now => server.serve id now
  | .notify kind => (server.notify kind).2
  | .closeIdle now => server.closeIdle now
  | .collect => server.collect

/-- Every reply on record was taken whole. -/
def RepliesWhole (server : Server β) : Prop :=
  ∀ connection ∈ server.registry.connections, connection.outlet.RepliesWhole

instance (server : Server β) : Decidable server.RepliesWhole :=
  inferInstanceAs (Decidable (∀ connection ∈ server.registry.connections,
    connection.outlet.RepliesWhole))

/-- The states that a server without connections comes to while every reply is taken whole. -/
inductive Reached : Server β → Prop where
  | start (config : ServerConfig) (backend : β) : Reached { config, backend }
  | step {server : Server β} (action : ServerAction) (hreached : Reached server)
    (hwhole : (server.act action).RepliesWhole) : Reached (server.act action)

theorem Reached.foldl {server : Server β} (h : server.Reached) (actions : List ServerAction)
    (hwhole : ∀ count < actions.length,
      ((actions.take (count + 1)).foldl act server).RepliesWhole) :
    (actions.foldl act server).Reached := by
  induction actions generalizing server with
  | nil => exact h
  | cons action actions ih =>
    apply ih
    · exact h.step action (hwhole 0 (Nat.zero_lt_succ _))
    · intro count hcount
      exact hwhole (count + 1) (Nat.succ_lt_succ hcount)

/-- Every connection is up to date in every kind outside a list. -/
def UpToDateOutside (server : Server β) (changed : List EventKind) : Prop :=
  ∀ connection ∈ server.registry.connections, ∀ kind, kind ∉ changed →
    connection.UpToDate server.backend kind

section

variable {server : Server β} {kind : EventKind} {changed : List EventKind}

theorem UpToDateOutside.notify (h : server.UpToDateOutside (kind :: changed)) :
    (server.notify kind).2.UpToDateOutside changed := by
  intro connection hmem other hother
  obtain ⟨_, hpush, rfl⟩ := List.mem_map.mp hmem
  obtain ⟨before, hbefore, rfl⟩ := List.mem_map.mp hpush
  by_cases hkind : kind = other
  · subst hkind
    exact before.upToDate_push_self server.backend kind
  · apply (h before hbefore other ?_).push
    · rwa [Backend.kind_currentEvent]
    · rw [List.mem_cons, not_or]
      exact ⟨fun h => hkind h.symm, hother⟩

theorem RepliesWhole.of_notify (h : (server.notify kind).2.RepliesWhole) : server.RepliesWhole := by
  intro connection hmem
  have hpushed := h (connection.push (Backend.currentEvent server.backend kind)).2
    (List.mem_map_of_mem (List.mem_map_of_mem hmem))
  exact hpushed.of_suffix (connection.log_suffix_push _)

/-- Publishing all kinds that have changed leaves none in which a connection is behind. -/
theorem UpToDateOutside.foldl_notify (h : server.UpToDateOutside changed) :
    (changed.foldl (fun server kind => (server.notify kind).2) server).UpToDateOutside [] := by
  induction changed generalizing server with
  | nil => exact h
  | cons kind changed ih => exact ih h.notify

theorem RepliesWhole.of_foldl_notify
    (h : (changed.foldl (fun server kind => (server.notify kind).2) server).RepliesWhole) :
    server.RepliesWhole := by
  induction changed generalizing server with
  | nil => exact h
  | cons kind changed ih => exact (ih h).of_notify

theorem UpToDateOutside.modify {id : Nat} {change : Connection → Connection}
    (hsame : ∀ connection : Connection, connection.SameStanding (change connection))
    (h : server.UpToDateOutside changed) : (server.modify id change).UpToDateOutside changed := by
  intro connection hmem kind hkind
  unfold Server.modify Registry.modify at hmem
  cases hget : server.registry.get? id with
  | none =>
    rw [hget] at hmem
    exact h connection hmem kind hkind
  | some found =>
    rw [hget] at hmem
    obtain ⟨other, hother, rfl⟩ := List.mem_map.mp hmem
    split
    · exact (hsame found).upToDate (h found (List.mem_of_find?_eq_some hget) kind hkind)
    · exact h other hother kind hkind

theorem UpToDateOutside.accept {inlet : Inlet} {outlet : Outlet} {now : Nat}
    (h : server.UpToDateOutside changed) :
    (server.accept inlet outlet now).2.UpToDateOutside changed := by
  unfold Server.accept
  split
  · exact h
  · unfold Registry.allocate
    cases hinput : Buffer.withCapacity server.config.bufferSize with
    | error e => exact h
    | ok input =>
      intro connection hmem kind hkind
      rcases List.mem_append.mp hmem with hold | hnew
      · exact h connection hold kind hkind
      · obtain rfl := List.mem_singleton.mp hnew
        intro hreceives
        obtain ⟨-, hcontains⟩ := Connection.receives_iff.mp hreceives
        rw [EventSet.contains_empty] at hcontains
        cases hcontains

theorem UpToDateOutside.closeIdle {now : Nat} (h : server.UpToDateOutside changed) :
    (server.closeIdle now).UpToDateOutside changed := by
  unfold Server.closeIdle
  split
  · intro connection hmem kind hkind
    obtain ⟨before, hbefore, rfl⟩ := List.mem_map.mp hmem
    split
    · exact .of_closed rfl
    · exact h before hbefore kind hkind
  · exact h

theorem UpToDateOutside.collect (h : server.UpToDateOutside changed) :
    server.collect.UpToDateOutside changed := by
  intro connection hmem kind hkind
  exact h connection (List.mem_filter.mp hmem).1 kind hkind

end

/-- Serving a connection leaves others behind only in what it reports, and then publishes that. -/
theorem UpToDateOutside.serve {server : Server MemoryBackend} {id now : Nat}
    (h : server.UpToDateOutside []) (hwhole : (server.serve id now).RepliesWhole) :
    (server.serve id now).UpToDateOutside [] := by
  unfold Server.serve at hwhole ⊢
  cases hget : server.registry.get? id with
  | none => exact h
  | some connection =>
    have hmem := List.mem_of_find?_eq_some hget
    have hhandled := Connection.handledSince_handleAll now (h connection hmem · List.not_mem_nil)
    rcases hall : connection.handleAll now server.backend with ⟨changed, after, left⟩
    rw [hall] at hhandled
    simp only [hget, hall] at hwhole ⊢
    -- Publishing adds to the records only, so the replies of the drain are whole before it.
    have hreplaced := RepliesWhole.of_foldl_notify hwhole
    have hsettled := hhandled.settled (hreplaced after (List.mem_map.mpr
      ⟨connection, hmem, by rw [if_pos hhandled.id_eq.symm]⟩))
    apply UpToDateOutside.foldl_notify
    intro current hcurrent kind hkind
    rw [EventSet.mem_toList, Bool.not_eq_true] at hkind
    obtain ⟨hvalue, hupToDate⟩ := hsettled kind hkind
    obtain ⟨other, hother, rfl⟩ := List.mem_map.mp hcurrent
    split
    · exact hupToDate
    · exact (h other hother kind List.not_mem_nil).of_eq hvalue

/-- As long as every reply is taken whole, every connection is up to date in every kind. -/
theorem Reached.upToDate {server : Server MemoryBackend} (h : server.Reached) :
    server.UpToDateOutside [] := by
  induction h with
  | start config backend => exact fun _ hmem => absurd hmem List.not_mem_nil
  | step action _ hwhole ih =>
    cases action with
    | accept inlet upcoming now => exact ih.accept
    | arrive id arrival => exact ih.modify fun _ => ⟨rfl, fun h => h, rfl, rfl⟩
    | finish id => exact ih.modify fun _ => ⟨rfl, fun h => h, rfl, rfl⟩
    | expect id upcoming => exact ih.modify fun _ => ⟨rfl, fun h => h, rfl, rfl⟩
    | serve id now => exact ih.serve hwhole
    | notify kind =>
      -- Publishing a kind settles it, also where nobody was behind in it.
      apply UpToDateOutside.notify
      exact fun connection hmem other _ => ih connection hmem other List.not_mem_nil
    | closeIdle now => exact ih.closeIdle
    | collect => exact ih.collect

/-- As long as every reply is taken whole, the last list of services that an open subscriber has
been sent is the current one, and so is the last list of prefixes. -/
theorem last_events_current {server : Server MemoryBackend} (hreached : server.Reached)
    {connection : Connection} (hmem : connection ∈ server.registry.connections)
    (hopen : connection.isOpen = true) :
    (connection.isSubscribed .service = true → connection.outlet.lastEvent? .service =
      some (.services server.backend.services.toList)) ∧
    (connection.isSubscribed .onMeshPrefix = true → connection.outlet.lastEvent? .onMeshPrefix =
      some (.prefixes server.backend.prefixes.toList)) := by
  have hupToDate := hreached.upToDate connection hmem
  constructor
  · intro hsubscribed
    apply hupToDate .service List.not_mem_nil
    rw [Connection.receives, hopen, hsubscribed, Bool.true_and]
  · intro hsubscribed
    apply hupToDate .onMeshPrefix List.not_mem_nil
    rw [Connection.receives, hopen, hsubscribed, Bool.true_and]

/-- A subscriber to services, and a subscriber that publishes a service in the same breath and takes
only half of the event that tells of it. -/
def publishing : List ServerAction :=
  [.accept {} [] 0, .accept {} [.whole, .whole, .interrupted, .whole, .half] 0,
    .arrive 1 (.data [0, 2, 0]), .serve 1 1, .arrive 1 (.data [12]), .serve 1 2,
    .arrive 2 (.data [0, 2, 0, 12, 0, 13, 0, 2, 0, 0, 0, 1, 0, 1, 7, 0, 2, 8, 9]), .serve 2 3]

/-- The server behind it. -/
def published : Server MemoryBackend := publishing.foldl act { config := {}, backend := {} }

theorem reached_published : published.Reached := by
  apply Reached.foldl
  · exact .start _ _
  · decide +kernel

theorem last_events_current_published : published.Reached ∧ ∃ connection,
    connection ∈ published.registry.connections ∧ connection.isOpen = true ∧
      connection.outlet.lastEvent? .service =
        some (.services published.backend.services.toList) ∧
      published.backend.services.toList = [⟨1, [7], [8, 9]⟩] := by
  have hsome : (published.registry.get? 1).isSome = true := by decide +kernel
  have hopen : (published.registry.get? 1).all (·.isOpen) = true := by decide +kernel
  have hsubscribed : (published.registry.get? 1).all (·.isSubscribed .service) = true := by
    decide +kernel
  obtain ⟨connection, hget⟩ := Option.isSome_iff_exists.mp hsome
  rw [hget, Option.all_some] at hopen hsubscribed
  have hmem := List.mem_of_find?_eq_some hget
  exact ⟨reached_published, connection, hmem, hopen,
    (last_events_current reached_published hmem hopen).1 hsubscribed, by decide +kernel⟩

end Server

end MeshControl
