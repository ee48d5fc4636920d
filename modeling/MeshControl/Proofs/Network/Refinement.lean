import MeshControl.Proofs.Network.Linking
import MeshControl.Proofs.Server.Numbering

/-!
The steps of a network against direct calls. Clients and connections stand at the same places, each
client linked to the connection at its place (`Network.Follows`), and the history is one of direct
calls on the backend of the server (`Network.Refines`). Of the steps of a network, beginning a call
and ending one are steps of direct calls too; serving a connection carries a call out or does
nothing of the kind; and no other step is seen (`Network.act_refines`).
-/

namespace MeshControl

/-- A place among the clients and the connections is taken by a client and its connection, or it is
free. -/
inductive Seated (number : Nat) : Option Seat → Option Connection → Stage → Prop where
  | free : Seated number none none .idle
  | taken {seat : Seat} {connection : Connection} {stage : Stage} (hid : seat.id = number + 1)
    (hlinked : Linked seat connection stage) : Seated number (some seat) (some connection) stage

namespace Seated

variable {number : Nat} {seat : Seat} {connection : Connection} {stage : Stage}

theorem of_seat {found : Option Connection} (h : Seated number (some seat) found stage) :
    ∃ connection, found = some connection ∧ seat.id = number + 1 ∧
      Linked seat connection stage := by
  cases h with
  | taken hid hlinked => exact ⟨_, rfl, hid, hlinked⟩

theorem of_connection {found : Option Seat} (h : Seated number found (some connection) stage) :
    ∃ seat, found = some seat ∧ seat.id = number + 1 ∧ Linked seat connection stage := by
  cases h with
  | taken hid hlinked => exact ⟨_, rfl, hid, hlinked⟩

theorem idle {found : Option Connection} (h : Seated number none found stage) : stage = .idle := by
  cases h
  rfl

theorem eq_none_iff {found : Option Seat} {other : Option Connection}
    (h : Seated number found other stage) : found = none ↔ other = none := by
  cases h <;> simp

end Seated

namespace Network

/-- Every client is linked to the connection at its place, and no connection is lost. -/
structure Follows (network : Network) (stages : Nat → Stage) : Prop where
  numbered : network.server.registry.IsNumbered
  seated : ∀ number, Seated number network.seats[number]?
    network.server.registry.connections[number]? (stages number)
  named : ∀ name, network.server.backend.tunnelName = some name → name.utf8ByteSize ≤ 65525
  patient : network.server.config.idleLimit = none

variable {network next : Network} {stages : Nat → Stage} {number : Nat} {seat : Seat}
  {start : MemoryBackend}

theorem Follows.at_seat (h : network.Follows stages) (hseat : network.seats[number]? = some seat) :
    ∃ connection, network.server.registry.connections[number]? = some connection ∧
      network.server.registry.get? seat.id = some connection ∧ seat.id = number + 1 ∧
      Linked seat connection (stages number) := by
  have hseated := h.seated number
  rw [hseat] at hseated
  obtain ⟨connection, hconnection, hid, hlinked⟩ := hseated.of_seat
  exact ⟨connection, hconnection, by rw [hid, h.numbered.get?_eq, hconnection], hid, hlinked⟩

theorem Follows.linked_of_mem (h : network.Follows stages) {connection : Connection}
    (hmem : connection ∈ network.server.registry.connections) :
    ∃ number seat, Linked seat connection (stages number) := by
  obtain ⟨number, hnumber⟩ := List.mem_iff_getElem?.mp hmem
  have hseated := h.seated number
  rw [hnumber] at hseated
  obtain ⟨seat, -, -, hlinked⟩ := hseated.of_connection
  exact ⟨number, seat, hlinked⟩

theorem Follows.length_eq (h : network.Follows stages) :
    network.seats.length = network.server.registry.connections.length := by
  have hiff (number : Nat) : network.seats.length ≤ number ↔
      network.server.registry.connections.length ≤ number := by
    rw [← List.getElem?_eq_none_iff, ← List.getElem?_eq_none_iff]
    exact (h.seated number).eq_none_iff
  exact Nat.le_antisymm ((hiff _).mpr (Nat.le_refl _)) ((hiff _).mp (Nat.le_refl _))

/-- What happens at one place leaves the others as they are. -/
theorem Follows.place (h : network.Follows stages) {after : Seat} {connection : Connection}
    {stage : Stage} (hseat : network.seats[number]? = some seat) (hid : after.id = seat.id)
    (hlinked : Linked after connection stage)
    (hseats : next.seats = network.seats.set number after)
    (hnumbered : next.server.registry.IsNumbered)
    (hconnection : next.server.registry.connections[number]? = some connection)
    (hothers : ∀ other, other ≠ number → next.server.registry.connections[other]? =
      network.server.registry.connections[other]?)
    (hname : next.server.backend.tunnelName = network.server.backend.tunnelName)
    (hconfig : next.server.config = network.server.config) :
    next.Follows (Function.update stages number stage) where
  numbered := hnumbered
  seated other := by
    obtain ⟨hbound, -⟩ := List.getElem?_eq_some_iff.mp hseat
    obtain ⟨_, -, -, hplace, -⟩ := h.at_seat hseat
    rw [hseats]
    by_cases hother : other = number
    · subst hother
      rw [List.getElem?_set_self hbound, hconnection, Function.update_self]
      exact .taken (hid.trans hplace) hlinked
    · rw [List.getElem?_set_ne fun hsame => hother hsame.symm, hothers other hother,
        Function.update_of_ne hother]
      exact h.seated other
  named := by
    rw [hname]
    exact h.named
  patient := hconfig ▸ h.patient

theorem Follows.of_update (h : next.Follows (Function.update stages number (stages number))) :
    next.Follows stages := by
  rwa [Function.update_eq_self] at h

/-- What happens at the client's side of one place leaves the connections as they are. -/
theorem Follows.setSeat (h : network.Follows stages) {after : Seat} {connection : Connection}
    {stage : Stage} (hseat : network.seats[number]? = some seat)
    (hconnection : network.server.registry.connections[number]? = some connection)
    (hlinked : Linked after connection stage) (hid : after.id = seat.id) :
    (network.setSeat number after).Follows (Function.update stages number stage) :=
  h.place hseat hid hlinked rfl h.numbered hconnection (fun _ _ => rfl) rfl rfl

/-- What happens to one connection leaves the others as they are. -/
theorem Follows.replace (next : Network) (h : network.Follows stages) {after : Seat}
    {connection now : Connection} {stage : Stage}
    (hseat : network.seats[number]? = some seat)
    (hconnection : network.server.registry.connections[number]? = some connection)
    (hlinked : Linked after now stage) (hid : after.id = seat.id) (hsame : now.id = connection.id)
    (hseats : next.seats = network.seats.set number after)
    (hregistry : next.server.registry = network.server.registry.replace now)
    (hname : next.server.backend.tunnelName = network.server.backend.tunnelName)
    (hconfig : next.server.config = network.server.config) :
    next.Follows (Function.update stages number stage) := by
  have hnow : now.id = number + 1 := hsame.trans (h.numbered.id_eq number connection hconnection)
  refine h.place hseat hid hlinked hseats ?_ ?_ ?_ hname hconfig
  · rw [hregistry]
    exact h.numbered.replace now
  · rw [hregistry, h.numbered.getElem?_replace hnow, if_pos rfl, hconnection]
    rfl
  · intro other hother
    rw [hregistry, h.numbered.getElem?_replace hnow, if_neg hother]

theorem set_seat_self (hseat : network.seats[number]? = some seat) :
    network.seats = network.seats.set number seat := by
  obtain ⟨hbound, rfl⟩ := List.getElem?_eq_some_iff.mp hseat
  exact (List.set_getElem_self hbound).symm

theorem Follows.observe (h : network.Follows stages) (seen : List Observation) :
    (network.observe seen).Follows stages :=
  ⟨h.numbered, h.seated, h.named, h.patient⟩

/-- The history is one of direct calls on the backend of the server. -/
def Refines (start : MemoryBackend) (network : Network) (stages : Nat → Stage) : Prop :=
  network.Follows stages ∧ Direct start network.history stages network.server.backend

theorem Follows.idle (h : network.Follows stages) (hfree : network.seats.length ≤ number) :
    stages number = .idle := by
  have hseated := h.seated number
  rw [List.getElem?_eq_none hfree] at hseated
  exact hseated.idle

theorem connect_refines (h : Refines start network stages) {upcoming : List Acceptance}
    (haccepting : Outlet.IsAccepting { upcoming }) (now : Nat) :
    Refines start (network.connect upcoming now) stages := by
  obtain ⟨hfollows, hdirect⟩ := h
  rcases network.server.accept_cases {} { upcoming } now with
    ⟨input, hfilled, haccept⟩ | ⟨-, hrefused, hserver⟩
  · simp only [connect, haccept]
    refine ⟨⟨hfollows.numbered.append rfl, fun number => ?_, hfollows.named, hfollows.patient⟩,
      hdirect⟩
    have hlength := hfollows.length_eq
    rcases Nat.lt_trichotomy number network.seats.length with hold | rfl | hnew
    · rw [List.getElem?_append_left hold, List.getElem?_append_left (hlength ▸ hold)]
      exact hfollows.seated number
    · rw [List.getElem?_concat_length, hlength, List.getElem?_concat_length, ← hlength,
        hfollows.idle (Nat.le_refl _)]
      refine .taken ?_ (.start _ rfl rfl rfl hfilled haccepting rfl)
      rw [hlength]
      exact hfollows.numbered.nextId_eq
    · have hbehind : network.seats.length + 1 ≤ number := hnew
      rw [List.getElem?_eq_none (by simpa using hbehind),
        List.getElem?_eq_none (by simpa [← hlength] using hbehind),
        hfollows.idle (Nat.le_of_lt hnew)]
      exact .free
  · have hconnect : network.connect upcoming now = network := by
      unfold connect
      split
      · rename_i id server haccept
        exact absurd (congrArg Prod.fst haccept) (hrefused id)
      · rename_i admission server _ haccept
        rw [haccept] at hserver
        rw [show server = network.server from hserver]
    rw [hconnect]
    exact ⟨hfollows, hdirect⟩

/-- With no connection closed and no limit on silence, there is nothing to tidy. -/
theorem tidy_eq (h : network.Follows stages) (now : Nat) :
    (network.server.closeIdle now).collect = network.server := by
  have hopen : ∀ connection ∈ network.server.registry.connections, connection.isOpen = true := by
    intro connection hmem
    obtain ⟨number, seat, hlinked⟩ := h.linked_of_mem hmem
    exact hlinked.isOpen
  simp only [Server.closeIdle, h.patient, Server.collect, Registry.collect,
    List.filter_eq_self.mpr hopen]

/-- A call begins with its request under way, or it fails because the request is too long. -/
theorem call_refines (h : Refines start network stages) (hseat : network.seats[number]? = some seat)
    (request : Request) : ∃ stages, Refines start (network.call number seat request) stages := by
  obtain ⟨hfollows, hdirect⟩ := h
  obtain ⟨connection, hconnection, -, -, hlinked⟩ := hfollows.at_seat hseat
  unfold call
  cases hawaiting : seat.awaiting with
  | some waiting => exact ⟨stages, hfollows, hdirect⟩
  | none =>
    have hidle : stages number = .idle := by
      have hnone := hlinked.awaiting_eq
      rw [hawaiting] at hnone
      cases hstage : stages number with
      | idle => rfl
      | asked | answered => rw [hstage] at hnone; cases hnone
    cases hpayload : request.payload? with
    | some payload =>
      obtain ⟨writeBuffer, hsend⟩ := Client.send_of_payload? hpayload hlinked.heard
      rw [hidle] at hlinked
      simp only [hsend]
      exact ⟨_, (hfollows.setSeat hseat hconnection (hlinked.ask hpayload) rfl).observe _,
        hdirect.called number request hidle (request.exists_payload?_iff.mp ⟨_, hpayload⟩)⟩
    | none =>
      obtain ⟨e, writeBuffer, hsend⟩ := Client.send_of_payload?_eq_none seat.client hpayload
      have hlong : ¬ request.Fits := by
        intro hfits
        obtain ⟨payload, hsome⟩ := request.exists_payload?_iff.mpr hfits
        rw [hpayload] at hsome
        cases hsome
      simp only [hsend]
      refine ⟨stages, ?_, hdirect.refused number request hidle hlong e⟩
      have hsame : Linked
          { seat with client := { seat.client with writeBuffer }, awaiting := none } connection
          (stages number) := { hlinked with awaiting_eq := hawaiting ▸ hlinked.awaiting_eq }
      exact (hfollows.setSeat hseat hconnection hsame rfl).of_update.observe _

theorem registry_modify {id : Nat} {connection : Connection} (change : Connection → Connection)
    (hget : network.server.registry.get? id = some connection) :
    (network.server.modify id change).registry =
      network.server.registry.replace (change connection) := by
  simp only [Server.modify, Registry.modify, hget]

theorem carry_refines (h : Refines start network stages)
    (hseat : network.seats[number]? = some seat) (count : Nat) :
    Refines start (network.carry number seat count) stages := by
  obtain ⟨hfollows, hdirect⟩ := h
  obtain ⟨connection, hconnection, hget, -, hlinked⟩ := hfollows.at_seat hseat
  simp only [carry]
  cases hbytes : seat.client.channel.sent.take count with
  | nil => exact ⟨hfollows, hdirect⟩
  | cons byte bytes =>
    have hsent := (List.take_append_drop count seat.client.channel.sent).symm
    rw [hbytes] at hsent
    dsimp only
    exact ⟨.of_update (hfollows.replace _ hseat hconnection (hlinked.carry (by simp) hsent) rfl rfl
      rfl (registry_modify _ hget) rfl rfl), hdirect⟩

theorem interrupt_refines (h : Refines start network stages)
    (hseat : network.seats[number]? = some seat) :
    Refines start { network with server := network.server.modify seat.id (·.arrive [.interrupted]) }
      stages := by
  obtain ⟨hfollows, hdirect⟩ := h
  obtain ⟨connection, hconnection, hget, -, hlinked⟩ := hfollows.at_seat hseat
  exact ⟨.of_update (hfollows.replace _ hseat hconnection hlinked.interrupt rfl rfl
    (set_seat_self hseat) (registry_modify _ hget) rfl rfl), hdirect⟩

theorem bring_refines (h : Refines start network stages)
    (hseat : network.seats[number]? = some seat) (count : Nat) :
    Refines start (network.bring number seat count) stages := by
  obtain ⟨hfollows, hdirect⟩ := h
  obtain ⟨connection, hconnection, hget, -, hlinked⟩ := hfollows.at_seat hseat
  simp only [bring, hget, hlinked.isOpen, Bool.true_or, if_true]
  exact ⟨(hfollows.setSeat hseat hconnection (hlinked.bring count) rfl).of_update, hdirect⟩

theorem settle_refines (h : Refines start network stages)
    (hseat : network.seats[number]? = some seat) :
    ∃ stages, Refines start (network.settle number seat) stages := by
  obtain ⟨hfollows, hdirect⟩ := h
  obtain ⟨connection, hconnection, -, -, hlinked⟩ := hfollows.at_seat hseat
  unfold settle
  cases hawaiting : seat.awaiting with
  | none => exact ⟨stages, hfollows, hdirect⟩
  | some request =>
    rw [hlinked.awaiting_eq] at hawaiting
    rcases hlinked.settle hawaiting with
      ⟨hlate, -⟩ | ⟨result, client, hstage, hending, hidle⟩
    · simp only [hlate]
      exact ⟨stages, hfollows, hdirect⟩
    · simp only [hending]
      exact ⟨_, (hfollows.setSeat hseat hconnection hidle rfl).observe _,
        hdirect.returned number request result hstage⟩

theorem EventsFit.of_notify {kind : EventKind}
    (h : EventsFit { network with server := (network.server.notify kind).2 }) :
    network.EventsFit := by
  intro connection hmem other hother
  refine h (connection.push (Backend.currentEvent network.server.backend kind)).2
    (List.mem_map_of_mem (List.mem_map_of_mem hmem)) other ?_
  rwa [(connection.push_frame _).2]

theorem Follows.notify (h : network.Follows stages) (hfit : network.EventsFit) (kind : EventKind) :
    Follows { network with server := (network.server.notify kind).2 } stages := by
  let event := Backend.currentEvent network.server.backend kind
  have hpushed : (network.server.notify kind).2.registry.connections =
      network.server.registry.connections.map fun connection => (connection.push event).2 := by
    simp only [Server.notify, Registry.publish, List.map_map]
    rfl
  refine ⟨?_, fun number => ?_, h.named, h.patient⟩
  · have hnumbered := h.numbered.map fun connection => (connection.push_frame event).1
    rw [← hpushed] at hnumbered
    exact hnumbered
  · simp only [hpushed, List.getElem?_map]
    have hseated := h.seated number
    cases hfound : network.server.registry.connections[number]? with
    | none =>
      rw [hfound] at hseated
      exact hseated
    | some connection =>
      rw [hfound] at hseated
      obtain ⟨seat, hseat, hid, hlinked⟩ := hseated.of_connection
      rw [hseat]
      refine .taken hid (hlinked.push fun hsubscribed => ?_)
      have hmem := EventSet.mem_toList.mpr hsubscribed
      rw [show event.kind = kind from Backend.kind_currentEvent ..] at hmem
      exact hfit connection (List.mem_of_getElem? hfound) kind hmem

/-- The network after its server has published some kinds. -/
def notifyAll (network : Network) (kinds : List EventKind) : Network :=
  { network with
    server := kinds.foldl (fun server kind => (server.notify kind).2) network.server }

theorem EventsFit.of_notifyAll {kinds : List EventKind} (h : (network.notifyAll kinds).EventsFit) :
    network.EventsFit := by
  induction kinds generalizing network with
  | nil => exact h
  | cons kind kinds ih =>
    have hlater : EventsFit { network with server := (network.server.notify kind).2 } := ih h
    exact hlater.of_notify

theorem Follows.notifyAll {kinds : List EventKind} (h : network.Follows stages)
    (hfit : (network.notifyAll kinds).EventsFit) : (network.notifyAll kinds).Follows stages := by
  induction kinds generalizing network with
  | nil => exact h
  | cons kind kinds ih => exact ih (h.notify hfit.of_notifyAll kind) hfit

theorem backend_notifyAll (network : Network) (kinds : List EventKind) :
    (network.notifyAll kinds).server.backend = network.server.backend := by
  induction kinds generalizing network with
  | nil => rfl
  | cons kind kinds ih => exact ih { network with server := (network.server.notify kind).2 }

/-- Serving a connection carries the request on it out, if the whole of it has arrived. -/
theorem serve_refines (h : Refines start network stages)
    (hseat : network.seats[number]? = some seat) (now : Nat)
    (hfit : EventsFit { network with server := network.server.serve seat.id now }) :
    ∃ stages, Refines start { network with server := network.server.serve seat.id now } stages ∧
      (seat.client.channel.sent = [] → ∀ request, stages number ≠ .asked request) := by
  obtain ⟨hfollows, hdirect⟩ := h
  obtain ⟨connection, hconnection, hget, -, hlinked⟩ := hfollows.at_seat hseat
  rcases hhandle : connection.handleAll now network.server.backend with ⟨changed, after, left⟩
  let handled : Network :=
    { network with
      server := { network.server with
        registry := network.server.registry.replace after, backend := left } }
  have hserve : { network with server := network.server.serve seat.id now } =
      handled.notifyAll changed.toList := by
    simp only [Server.serve, hget, hhandle]
    rfl
  rw [hserve] at hfit ⊢
  -- Publishing changes no subscription, so the events that fit behind it fit before it.
  have hhandled := hfit.of_notifyAll
  have hid : after.id = connection.id := by
    have hsame := connection.id_handleAll now network.server.backend
    rwa [hhandle] at hsame
  have hplace : handled.server.registry.connections[number]? = some after := by
    rw [hfollows.numbered.getElem?_replace
      (hid.trans (hfollows.numbered.id_eq number connection hconnection)), if_pos rfl, hconnection]
    rfl
  have hfits : ∀ kind, after.isSubscribed kind = true →
      (ServerMessage.event (Backend.currentEvent left kind)).Fits := fun kind hsubscribed =>
    hhandled after (List.mem_of_getElem? hplace) kind (EventSet.mem_toList.mpr hsubscribed)
  have hbackend : (handled.notifyAll changed.toList).server.backend = left :=
    backend_notifyAll handled changed.toList
  -- Publishing comes after the request was carried out, and does not touch the backend.
  rcases hlinked.handleAll hfollows.named hhandle hfits with
    ⟨harrivals, ⟨hleft, hstill⟩ | ⟨request, hasked, hleft, hanswered⟩⟩
  · have hplaced : handled.Follows stages := .of_update (hfollows.replace _ hseat hconnection hstill
      rfl hid (set_seat_self hseat) rfl (congrArg MemoryBackend.tunnelName hleft) rfl)
    refine ⟨stages, ⟨hplaced.notifyAll hfit, ?_⟩, fun hsent request hstage => ?_⟩
    · rw [hbackend, hleft]
      exact hdirect
    · rw [hstage] at hstill
      exact hstill.not_asked harrivals hsent
  · have hname : left.tunnelName = network.server.backend.tunnelName := by
      rw [hleft, MemoryBackend.tunnelName_apply]
    have hplaced := hfollows.replace handled hseat hconnection hanswered rfl hid
      (set_seat_self hseat) rfl hname rfl
    refine ⟨_, ⟨hplaced.notifyAll hfit, ?_⟩, fun _ other => ?_⟩
    · rw [hbackend, hleft]
      exact hdirect.applied number request hasked
    · rw [Function.update_self]
      nofun

theorem atSeat_eq (hseat : network.seats[number]? = some seat) (step : Seat → Network) :
    network.atSeat number step = step seat := by
  rw [atSeat, hseat, Option.elim_some]

theorem atSeat_refines {step : Seat → Network} (h : Refines start network stages)
    (hstep : ∀ seat, network.seats[number]? = some seat →
      ∃ stages, Refines start (step seat) stages) :
    ∃ stages, Refines start (network.atSeat number step) stages := by
  cases hseat : network.seats[number]? with
  | none => exact ⟨stages, by rwa [atSeat, hseat]⟩
  | some seat =>
    rw [atSeat_eq hseat]
    exact hstep seat hseat

/-- No step leaves the histories of direct calls. -/
theorem act_refines (h : Refines start network stages) (action : NetworkAction)
    (hfit : (network.act action).EventsFit) :
    ∃ stages, Refines start (network.act action) stages := by
  cases action with
  | connect upcoming haccepting now => exact ⟨stages, connect_refines h haccepting now⟩
  | call number request => exact atSeat_refines h fun seat hseat => call_refines h hseat request
  | carry number count =>
    exact atSeat_refines h fun seat hseat => ⟨stages, carry_refines h hseat count⟩
  | interrupt number =>
    exact atSeat_refines h fun seat hseat => ⟨stages, interrupt_refines h hseat⟩
  | serve number now =>
    refine atSeat_refines h fun seat hseat => ?_
    rw [act, atSeat_eq hseat] at hfit
    obtain ⟨after, hafter, -⟩ := serve_refines h hseat now hfit
    exact ⟨after, hafter⟩
  | notify kind => exact ⟨stages, h.1.notify hfit.of_notify kind, h.2⟩
  | tidy now =>
    refine ⟨stages, ?_⟩
    rwa [act, tidy_eq h.1]
  | bring number count =>
    exact atSeat_refines h fun seat hseat => ⟨stages, bring_refines h hseat count⟩
  | settle number => exact atSeat_refines h fun seat hseat => settle_refines h hseat

theorem Reached.refines {config : ServerConfig} {backend : MemoryBackend}
    (hpatient : config.idleLimit = none)
    (hname : ∀ name, backend.tunnelName = some name → name.utf8ByteSize ≤ 65525)
    (h : Reached config backend network) : ∃ stages, Refines backend network stages := by
  induction h with
  | start => exact ⟨_, ⟨⟨by simp, rfl⟩, fun _ => .free, hname, hpatient⟩, .start⟩
  | step action _ hfit ih =>
    obtain ⟨stages, hrefines⟩ := ih
    exact act_refines hrefines action hfit

end Network

end MeshControl
