import MeshControl.Proofs.Network.Refinement

/-!
Every call over a network returns, with what the request gives on one shared backend
(`calls_are_direct`). A client that waits has its reply when its bytes have come to the server, the
server has served it, and the bytes of the server have come to it; what else happens in between does
not matter, since that state is one that a network can be in at any time.
-/

namespace MeshControl

namespace Network

variable {network : Network} {number : Nat} {seat : Seat} {request : Request}
  {config : ServerConfig} {backend : MemoryBackend}

theorem Reached.eventsFit (h : Reached config backend network) : network.EventsFit := by
  cases h with
  | start => exact fun _ hmem => absurd hmem List.not_mem_nil
  | step _ _ hfit => exact hfit

theorem EventsFit.modify {id : Nat} {change : Connection → Connection} (h : network.EventsFit)
    (hsame : ∀ connection, (change connection).subscriptions = connection.subscriptions) :
    EventsFit { network with server := network.server.modify id change } := by
  intro connection hmem kind hkind
  unfold Server.modify Registry.modify at hmem
  cases hget : network.server.registry.get? id with
  | none =>
    simp only [hget] at hmem
    exact h connection hmem kind hkind
  | some found =>
    simp only [hget] at hmem
    obtain ⟨other, hother, rfl⟩ := List.mem_map.mp hmem
    split at hkind
    · rw [hsame] at hkind
      exact h found (List.mem_of_find?_eq_some hget) kind hkind
    · exact h other hother kind hkind

theorem EventsFit.of_server_eq {next : Network} (h : network.EventsFit)
    (hserver : next.server = network.server) : next.EventsFit := by
  unfold EventsFit
  rw [hserver]
  exact h

theorem server_bring (network : Network) (number count : Nat) :
    (network.act (.bring number count)).server = network.server := by
  cases hseat : network.seats[number]? with
  | none => simp only [act, atSeat, hseat, Option.elim_none]
  | some seat =>
    simp only [act, atSeat_eq hseat, bring]
    split <;> rfl

theorem server_settle (network : Network) (number : Nat) :
    (network.act (.settle number)).server = network.server := by
  cases hseat : network.seats[number]? with
  | none => simp only [act, atSeat, hseat, Option.elim_none]
  | some seat =>
    simp only [act, atSeat_eq hseat, settle]
    split
    · rfl
    · split <;> rfl

/-- All that a client has sent comes to the server. -/
theorem carry_all (hfit : network.EventsFit) (hseat : network.seats[number]? = some seat) :
    let carried := network.act (.carry number seat.client.channel.sent.length)
    carried.EventsFit ∧ carried.history = network.history ∧ ∃ after,
      carried.seats[number]? = some after ∧ after.awaiting = seat.awaiting ∧
        after.client.channel.sent = [] := by
  simp only [act, atSeat_eq hseat, carry, List.take_length, List.drop_length]
  cases hsent : seat.client.channel.sent with
  | nil => exact ⟨hfit, rfl, seat, hseat, rfl, hsent⟩
  | cons byte bytes =>
    obtain ⟨hbound, -⟩ := List.getElem?_eq_some_iff.mp hseat
    exact ⟨hfit.modify fun _ => rfl, rfl, _, List.getElem?_set_self hbound, rfl, rfl⟩

/-- A client to whom all that the server has written comes has its reply, if its request is not
under way any more. -/
theorem bring_all {start : MemoryBackend} {stages : Nat → Stage} (h : Refines start network stages)
    (hseat : network.seats[number]? = some seat) (hawaiting : seat.awaiting = some request)
    (hasked : ∀ request, stages number ≠ .asked request) :
    ∃ brought result, let ended := (network.act (.bring number brought)).act (.settle number)
      ended.history = network.history ++ [.returned number result] := by
  obtain ⟨hfollows, -⟩ := h
  obtain ⟨connection, hconnection, hget, -, hlinked⟩ := hfollows.at_seat hseat
  have hrequest := hlinked.awaiting_eq.symm.trans hawaiting
  obtain ⟨result, hstage⟩ : ∃ result, stages number = .answered request result := by
    cases hstage : stages number with
    | idle => rw [hstage] at hrequest; cases hrequest
    | asked other => exact absurd hstage (hasked other)
    | answered other result =>
      rw [hstage] at hrequest
      exact ⟨result, by rw [show other = request from Option.some.inj hrequest]⟩
  let bytes := (connection.outlet.bytes.drop seat.brought).take connection.outlet.bytes.length
  let after : Seat :=
    { seat with
      client := { seat.client with channel := seat.client.channel.deliver bytes }
      brought := seat.brought + bytes.length }
  have hbring : network.act (.bring number connection.outlet.bytes.length) =
      network.setSeat number after := by
    refine (atSeat_eq hseat _).trans ?_
    simp only [bring, hget, hlinked.isOpen, Bool.true_or, if_true]
    rfl
  obtain ⟨hbound, -⟩ := List.getElem?_eq_some_iff.mp hseat
  have hafter : (network.setSeat number after).seats[number]? = some after :=
    List.getElem?_set_self hbound
  have hlinkedAfter : Linked after connection (stages number) := hlinked.bring _
  rcases hlinkedAfter.settle hrequest with ⟨-, hlate⟩ | ⟨result, client, -, hending, -⟩
  · -- All that the connection has written has come, so the reply is not late.
    have hlack : seat.brought + bytes.length < connection.outlet.bytes.length :=
      hlate ⟨request, result, hstage⟩
    simp only [bytes, List.length_take, List.length_drop] at hlack
    omega
  · refine ⟨connection.outlet.bytes.length, result, ?_⟩
    have hsettle : (network.setSeat number after).act (.settle number) =
        (network.setSeat number after).settle number after := atSeat_eq hafter _
    rw [hbring, hsettle]
    simp only [settle, show after.awaiting = some request from hawaiting, hending]
    rfl

/-- A client that waits gets its reply when its bytes have come to the server, the server has served
it, and the bytes of the server have come to it. -/
theorem Reached.returns (hpatient : config.idleLimit = none)
    (hname : ∀ name, backend.tunnelName = some name → name.utf8ByteSize ≤ 65525)
    (h : Reached config backend network) (hseat : network.seats[number]? = some seat)
    (hawaiting : seat.awaiting = some request) (now : Nat) :
    ∃ carried, let served := (network.act (.carry number carried)).act (.serve number now)
      served.EventsFit → ∃ brought result,
        let ended := (served.act (.bring number brought)).act (.settle number)
        ended.history = network.history ++ [.returned number result] ∧
          Reached config backend ended := by
  refine ⟨seat.client.channel.sent.length, ?_⟩
  obtain ⟨hcarriedFit, hhistory, after, hafter, hwaiting, hsent⟩ := carry_all h.eventsFit hseat
  have hcarried := h.step (.carry number seat.client.channel.sent.length) hcarriedFit
  obtain ⟨stages, hrefines⟩ := hcarried.refines hpatient hname
  intro served hfit
  have hserved : served = { network.act (.carry number seat.client.channel.sent.length) with
      server := (network.act (.carry number seat.client.channel.sent.length)).server.serve
        after.id now } := atSeat_eq hafter _
  have hreached : Reached config backend served := hcarried.step (.serve number now) hfit
  obtain ⟨stages, hrefines, hnotAsked⟩ := serve_refines hrefines hafter now (hserved ▸ hfit)
  rw [← hserved] at hrefines
  have hseated : served.seats[number]? = some after := by
    rw [hserved]
    exact hafter
  obtain ⟨brought, result, hended⟩ :=
    bring_all hrefines hseated (hwaiting.trans hawaiting) (hnotAsked hsent)
  have hbrought := hreached.step (.bring number brought)
    (hfit.of_server_eq (server_bring served number brought))
  refine ⟨brought, result, ?_, hbrought.step (.settle number)
    (hbrought.eventsFit.of_server_eq (server_settle _ number))⟩
  rw [hended, hserved]
  exact congrArg (· ++ _) hhistory

/-- One more client is accepted as long as there are fewer than there may be. -/
theorem length_connect {start : MemoryBackend} {stages : Nat → Stage}
    (h : Refines start network stages) (upcoming : List Acceptance) (now : Nat)
    (hplace : network.seats.length < network.server.config.maxConnections)
    (hroom : ∃ input, Buffer.withCapacity network.server.config.bufferSize = .ok input) :
    (network.connect upcoming now).seats.length = network.seats.length + 1 := by
  obtain ⟨input, hinput⟩ := hroom
  rcases network.server.accept_cases {} { upcoming } now with
    ⟨_, -, haccept⟩ | ⟨hfull | ⟨e, hnone⟩, -, -⟩
  · simp only [connect, haccept, List.length_append, List.length_singleton]
  · have hlive : network.server.registry.liveCount ≤ network.seats.length := by
      rw [h.1.length_eq]
      exact List.countP_le_length
    omega
  · rw [hinput] at hnone
    cases hnone

theorem Reached.foldl (h : Reached config backend network) (actions : List NetworkAction)
    (hfit : ∀ count < actions.length, ((actions.take (count + 1)).foldl act network).EventsFit) :
    Reached config backend (actions.foldl act network) := by
  induction actions generalizing network with
  | nil => exact h
  | cons action actions ih =>
    apply ih
    · exact h.step action (hfit 0 (Nat.zero_lt_succ _))
    · intro count hcount
      exact hfit (count + 1) (Nat.succ_lt_succ hcount)

end Network

/-- Clients over a network make the calls that they could make on one shared backend, in any
interleaving: what is seen of their calls, and what becomes of the backend, is what is seen where
each call is carried out on the backend at once, at some moment between its beginning and its end.
No call that has begun is stuck: once its bytes have come across and the server has served it, it
returns. A call is a request that is sent and then settled, and a further client is accepted as long
as there is place for it. -/
theorem calls_are_direct {config : ServerConfig} {backend : MemoryBackend} {network : Network}
    (hpatient : config.idleLimit = none)
    (hname : ∀ name, backend.tunnelName = some name → name.utf8ByteSize ≤ 65525)
    (hreached : Network.Reached config backend network) :
    (∃ stages, Direct backend network.history stages network.server.backend ∧
      ∀ number seat, network.seats[number]? = some seat →
        seat.awaiting = (stages number).request?) ∧
    (∀ number seat request now, network.seats[number]? = some seat →
      seat.awaiting = some request → ∃ carried,
        let served := (network.act (.carry number carried)).act (.serve number now)
        served.EventsFit → ∃ brought result,
          let ended := (served.act (.bring number brought)).act (.settle number)
          ended.history = network.history ++ [.returned number result] ∧
            Network.Reached config backend ended) ∧
    (network.seats.length < network.server.config.maxConnections →
      (∃ input, Buffer.withCapacity network.server.config.bufferSize = .ok input) →
      ∀ upcoming haccepting now,
        (network.act (.connect upcoming haccepting now)).seats.length = network.seats.length + 1) ∧
    (∀ request, Client.perform request = (do
      Client.send request
      Client.settleCall request)) ∧
    ∀ (shared : MemoryBackend) (request : Request),
      (shared.apply request).1 = shared.result request := by
  obtain ⟨stages, hrefines⟩ := hreached.refines hpatient hname
  refine ⟨⟨stages, hrefines.2, fun number seat hseat => ?_⟩,
    fun number seat request now hseat hawaiting =>
      hreached.returns hpatient hname hseat hawaiting now,
    fun hplace hroom upcoming _ now => Network.length_connect hrefines upcoming now hplace hroom,
    Client.perform_eq, MemoryBackend.apply_result⟩
  obtain ⟨_, -, -, -, hlinked⟩ := hrefines.1.at_seat hseat
  exact hlinked.awaiting_eq

/-- A backend with nothing but a name for its tunnel. -/
def tunnelOnly : MemoryBackend := { tunnelName := some "utun7" }

/-- Two clients. While the first, which is subscribed to services, withdraws a service that is not
there, the second publishes one, so that an event comes before the reply. The second then asks for
the name of the tunnel, and begins to withdraw a prefix of three bytes. -/
def interleaving : List NetworkAction :=
  [.connect [] (by simp [Outlet.IsAccepting]) 0,
    .connect [.interrupted] (by simp [Outlet.IsAccepting]) 0, .call 0 (.subscribe .service),
    .carry 0 3, .interrupt 0, .carry 0 1, .serve 0 1, .bring 0 100, .settle 0,
    .call 0 (.removeService 7 [1]), .call 1 (.addService 1 [7] [8, 9]), .carry 1 100, .serve 1 2,
    .carry 0 100, .serve 0 3, .bring 0 1, .settle 0, .bring 0 100, .settle 0, .bring 1 100,
    .settle 1, .call 1 .getTunnelName, .carry 1 100, .serve 1 4, .bring 1 100, .settle 1,
    .call 1 (.removePrefix [1, 2, 3] 64)]

/-- The network behind it. -/
def interleaved : Network :=
  interleaving.foldl Network.act { server := { config := {}, backend := tunnelOnly } }

theorem reached_interleaved : Network.Reached {} tunnelOnly interleaved := by
  apply Network.Reached.foldl
  · exact .start
  · decide +kernel

theorem calls_are_direct_interleaved :
    ({} : ServerConfig).idleLimit = none ∧
    (∀ name, tunnelOnly.tunnelName = some name → name.utf8ByteSize ≤ 65525) ∧
    Network.Reached {} tunnelOnly interleaved ∧
    interleaved.history =
      [.called 0 (.subscribe .service), .returned 0 (.ok none), .called 0 (.removeService 7 [1]),
        .called 1 (.addService 1 [7] [8, 9]), .returned 0 (.error (.server .noSuchKey)),
        .returned 1 (.ok none), .called 1 .getTunnelName, .returned 1 (.ok (some "utun7")),
        .called 1 (.removePrefix [1, 2, 3] 64)] ∧
    interleaved.server.backend.services.toList = [⟨1, [7], [8, 9]⟩] ∧
    ∃ stages, Direct tunnelOnly interleaved.history stages interleaved.server.backend := by
  have hpatient : ({} : ServerConfig).idleLimit = none := rfl
  have hname : ∀ name, tunnelOnly.tunnelName = some name → name.utf8ByteSize ≤ 65525 := by
    intro name h
    obtain rfl := Option.some.inj h
    decide +kernel
  obtain ⟨⟨stages, hdirect, -⟩, -⟩ := calls_are_direct hpatient hname reached_interleaved
  exact ⟨hpatient, hname, reached_interleaved, by decide +kernel, by decide +kernel, stages,
    hdirect⟩

end MeshControl
