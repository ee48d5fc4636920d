import MeshControl.Proofs.Connection.Consulting

/-!
What becomes of one connection in an action of its server that leaves alone what arrives from its
client (`Connection.Fares`). Other peers come and go, send and are served, and kinds are published;
to the connection this is a row of pushes at most (`Server.fares_act`). Either way it goes on with
its account (`Connection.Fares.accounts`).
-/

namespace MeshControl

/-- Whether an action leaves alone what arrives on the connection with an id. A read of it may find
nothing or be interrupted. -/
def ServerAction.spares (id : Nat) : ServerAction → Bool
  | arrive other arrival => other ≠ id || arrival = .wouldBlock || arrival = .interrupted
  | finish other => other ≠ id
  | _ => true

/-- A change of the connection with an id is found under that id. -/
theorem Registry.IsOrdered.get?_modify_self {registry : Registry} (h : registry.IsOrdered)
    (id : Nat) {change : Connection → Connection}
    (hchange : ∀ connection : Connection, (change connection).id = connection.id) :
    (registry.modify id change).get? id = (registry.get? id).map change := by
  cases hget : registry.get? id with
  | none => rw [modify, hget, hget, Option.map_none]
  | some connection =>
    obtain ⟨hmem, rfl⟩ := get?_eq_some hget
    rw [h.get?_modify connection.id hchange hmem, if_pos rfl, Option.map_some]

namespace Connection

variable {β : Type} [Backend β]

/-- What becomes of a connection in an action that leaves alone what arrives on it, and the backends
that messages on it are handled with. -/
inductive Fares (before : Connection) (backend : β) : Option Connection → List β → Prop where
  | stays {inlet : Inlet} (upcoming : List Acceptance)
    (hpending : inlet.pending = before.inlet.pending)
    (hsteady : before.inlet.IsSteady → inlet.IsSteady) :
    Fares before backend
      (some { before with inlet, outlet := { before.outlet with upcoming } }) []
  | told (events : List Event) : Fares before backend (some (before.pushed events)) []
  | served {now : Nat} {changed : EventSet} {after : Connection} {left : β}
    (hall : before.handleAll now backend = (changed, after, left)) (events : List Event) :
    Fares before backend (some (after.pushed events)) (before.consults now backend)
  | closed : Fares before backend (some before.close) []
  | collected (hclosed : before.isOpen = false) : Fares before backend none []

variable {before after : Connection} {backend : β} {found : Option Connection} {consulted : List β}

theorem Fares.same (before : Connection) (backend : β) : before.Fares backend (some before) [] :=
  .stays before.outlet.upcoming rfl fun hsteady => hsteady

/-- What was offered to the stream of a connection is on record later, and nothing is offered to a
closed one. -/
structure Lasts (before after : Connection) : Prop where
  log_suffix : before.outlet.log <:+ after.outlet.log
  isOpen : after.isOpen = true → before.isOpen = true
  silent : before.isOpen = false → after.outlet.log = before.outlet.log

theorem Offers.lasts (h : before.Offers after) : before.Lasts after where
  log_suffix := h.log_suffix
  isOpen := h.isOpen
  silent hclosed := by rw [h.silent hclosed]

theorem Fares.lasts (h : before.Fares backend (some after) consulted) : before.Lasts after := by
  cases h with
  | stays upcoming => exact ⟨List.suffix_refl _, fun hopen => hopen, fun _ => rfl⟩
  | told events => exact (offers_pushed events before).lasts
  | @served now changed after left hall events =>
    have hhandled := offers_handleAll before now backend
    rw [hall] at hhandled
    exact (hhandled.trans (offers_pushed events after)).lasts
  | closed => exact ⟨List.suffix_refl _, nofun, fun _ => rfl⟩

variable {sent : Bytes} {waiting : List Request} {handled : List (Request × β)} {lost : Bytes}

/-- Whatever becomes of a connection, it goes on with its account: the first of the requests that
wait are handled, and the others still wait. -/
theorem Fares.accounts (h : before.Fares backend found consulted)
    (haccounts : before.Accounts handled lost)
    (hlistens : before.isOpen = true → before.Listens sent waiting) :
    ∃ taken behind lost, waiting = taken ++ behind ∧ consulted.length = taken.length ∧
      ∀ after, found = some after → after.Accounts (handled ++ taken.zip consulted) lost ∧
        (after.isOpen = true → after.Listens sent behind) := by
  cases h with
  | stays upcoming hpending hsteady =>
    refine ⟨[], waiting, lost, rfl, rfl, ?_⟩
    rintro _ ⟨⟩
    rw [List.zip_nil_left, List.append_nil]
    refine ⟨haccounts.of_eq rfl rfl, fun hopen => ?_⟩
    have hbefore := hlistens hopen
    refine ⟨hsteady hbefore.steady, hbefore.lacks, ?_⟩
    rw [hpending]
    exact hbefore.asks
  | told events =>
    obtain ⟨lost, hpushed⟩ := haccounts.pushed events
    refine ⟨[], waiting, lost, rfl, rfl, ?_⟩
    rintro _ ⟨⟩
    rw [List.zip_nil_left, List.append_nil]
    exact ⟨hpushed, fun hopen => (hlistens ((offers_pushed events before).isOpen hopen)).pushed _⟩
  | @served now changed after left hall events =>
    by_cases hopen : before.isOpen = true
    · obtain ⟨taken, behind, lost, hwaiting, hlength, hafter, hbehind⟩ :=
        accounts_handleAll haccounts hopen (hlistens hopen) hall
      obtain ⟨lost, hpushed⟩ := hafter.pushed events
      refine ⟨taken, behind, lost, hwaiting, hlength, ?_⟩
      rintro _ ⟨⟩
      exact ⟨hpushed, fun _ => hbehind.pushed events⟩
    · rw [handleAll_of_closed now backend hopen] at hall
      obtain ⟨-, rfl, -⟩ := hall
      obtain ⟨lost, hpushed⟩ := haccounts.pushed events
      rw [consults_of_closed now backend hopen]
      refine ⟨[], waiting, lost, rfl, rfl, ?_⟩
      rintro _ ⟨⟩
      rw [List.zip_nil_left, List.append_nil]
      exact ⟨hpushed, fun hstill => absurd ((offers_pushed events before).isOpen hstill) hopen⟩
  | closed =>
    refine ⟨[], waiting, lost, rfl, rfl, ?_⟩
    rintro _ ⟨⟩
    rw [List.zip_nil_left, List.append_nil]
    exact ⟨haccounts.close, nofun⟩
  | collected => exact ⟨[], waiting, lost, rfl, rfl, nofun⟩

end Connection

namespace Server

variable {β : Type} [Backend β]

/-- The backends that messages on the connection with an id are handled with in an action. -/
def consults (server : Server β) (id : Nat) : ServerAction → List β
  | .serve other now =>
    if other = id then (server.registry.get? id).elim [] (·.consults now server.backend) else []
  | _ => []

variable {server : Server β} {id : Nat} {connection : Connection}

theorem get?_arrive (h : server.registry.IsSound) (id : Nat) (arrival : Arrival) :
    (server.act (.arrive id arrival)).registry.get? id = (server.registry.get? id).map
      fun connection => { connection with inlet := connection.inlet.push arrival } :=
  h.isOrdered.get?_modify_self id fun _ => rfl

theorem fares_serve (h : server.registry.IsSound) (hget : server.registry.get? id = some connection)
    (other now : Nat) :
    connection.Fares server.backend ((server.serve other now).registry.get? id)
      (server.consults id (.serve other now)) := by
  obtain ⟨hmem, hid⟩ := Registry.get?_eq_some hget
  cases hserved : server.registry.get? other with
  | none =>
    have hother : other ≠ id := by
      rintro rfl
      rw [hget] at hserved
      cases hserved
    rw [serve, hserved, hget, consults, if_neg hother]
    exact .same connection server.backend
  | some found =>
    rcases hall : found.handleAll now server.backend with ⟨changed, after, left⟩
    have hafter := get?_serve h hserved hall hmem
    rw [hid] at hafter
    rw [hafter, consults]
    by_cases hother : other = id
    · subst hother
      obtain rfl : connection = found := by
        rw [hget] at hserved
        exact Option.some.inj hserved
      rw [if_pos rfl, if_pos rfl, hget]
      exact .served hall _
    · rw [if_neg hother, if_neg (Ne.symm hother)]
      exact .told _

/-- What becomes of a connection in an action of its server that spares it. -/
theorem fares_act (h : server.registry.IsSound) (hget : server.registry.get? id = some connection)
    {action : ServerAction} (hspares : action.spares id = true) :
    connection.Fares server.backend ((server.act action).registry.get? id)
      (server.consults id action) := by
  obtain ⟨hmem, hid⟩ := Registry.get?_eq_some hget
  have hordered := h.isOrdered
  have hsame := Connection.Fares.same connection server.backend
  -- A change of the connection with some id is a change of this one or leaves it as it is.
  have hmodify (other : Nat) {change : Connection → Connection}
      (hchange : ∀ connection : Connection, (change connection).id = connection.id)
      (hown : other = id → connection.Fares server.backend (some (change connection)) []) :
      connection.Fares server.backend ((server.registry.modify other change).get? id) [] := by
    have hfound := hordered.get?_modify other hchange hmem
    rw [hid] at hfound
    rw [hfound]
    split
    · rename_i hother
      exact hown hother.symm
    · exact hsame
  cases action with
  | accept inlet upcoming now =>
    have hkept : (server.act (.accept inlet upcoming now)).registry.get? id = some connection := by
      rw [← hid]
      refine (isSound_act h _).isOrdered.get?_eq ?_
      change connection ∈ (server.accept inlet { upcoming } now).2.registry.connections
      rcases server.accept_cases inlet { upcoming } now with ⟨input, -, haccept⟩ | ⟨-, -, haccept⟩
      · rw [haccept]
        exact List.mem_append_left _ hmem
      · rwa [haccept]
    rw [hkept]
    exact hsame
  | arrive other arrival =>
    refine hmodify other (fun _ => rfl) fun hother => ?_
    have hnothing : arrival = .wouldBlock ∨ arrival = .interrupted := by
      simpa [ServerAction.spares, hother] using hspares
    refine .stays connection.outlet.upcoming ?_ fun hsteady => ⟨hsteady.1, ?_⟩
    · rcases hnothing with rfl | rfl <;> simp [Inlet.push, Inlet.pending]
    · intro next hnext
      rcases List.mem_append.mp hnext with hold | hnew
      · exact hsteady.2 next hold
      · rcases hnothing with rfl | rfl <;> rw [List.mem_singleton.mp hnew] <;> rfl
  | finish other =>
    refine hmodify other (fun _ => rfl) fun hother => ?_
    simp [ServerAction.spares, hother] at hspares
  | expect other upcoming =>
    exact hmodify other (fun _ => rfl) fun _ => .stays upcoming rfl fun hsteady => hsteady
  | serve other now => exact fares_serve h hget other now
  | notify kind =>
    have hpushed := hordered.get?_map
      (Connection.pushed [Backend.currentEvent server.backend kind])
      (fun connection => (connection.moves_pushed _).continues.id_eq) hmem
    change connection.Fares server.backend ((server.registry.publish _).2.get? id) []
    rw [Registry.publish, List.map_map, ← hid]
    exact hpushed ▸ .told _
  | closeIdle now =>
    change connection.Fares server.backend ((server.closeIdle now).registry.get? id) []
    unfold closeIdle
    split
    · rename_i limit hlimit
      have hclosed := hordered.get?_map
        (fun other => if other.expires now limit then other.close else other)
        (fun connection => by split <;> rfl) hmem
      rw [hid] at hclosed
      change connection.Fares server.backend ((server.registry.closeIdle now limit).2.get? id) []
      rw [Registry.closeIdle, hclosed]
      split
      · exact .closed
      · exact hsame
    · exact hget ▸ hsame
  | collect =>
    change connection.Fares server.backend (server.registry.collect.2.get? id) []
    rw [hordered.get?_collect, hget]
    cases hopen : connection.isOpen with
    | true =>
      rw [Option.filter_some_pos hopen]
      exact hsame
    | false =>
      rw [Option.filter_some_neg (by simpa using hopen)]
      exact .collected hopen

end Server

end MeshControl
