import MeshControl.Proofs.Connection.Accounting

/-!
What becomes of an account. A push goes on with it (`Accounts.pushed`), and so does handling all
that has arrived: of the requests that are on their way it takes up the first ones, each with the
backend at that moment (`Connection.consults`), and leaves the others on their way
(`Connection.accounts_handleAll`).
-/

namespace MeshControl.Connection

section

variable {σ : Type}

/-- The callback, with a note of the states that it is run with. -/
def noting (onMessage : Connection → σ → Connection × σ) (connection : Connection) :
    σ × List σ → Connection × σ × List σ
  | (state, noted) =>
    let (handled, left) := onMessage connection state
    (handled, left, noted ++ [state])

/-- Taking a note of the states of a callback changes nothing else. -/
theorem drain_noting (onMessage : Connection → σ → Connection × σ) (now : Nat)
    (connection : Connection) (state : σ × List σ) :
    drain onMessage now connection state.1 = ((drain (noting onMessage) now connection state).1,
      (drain (noting onMessage) now connection state).2.1) :=
  drain_project Prod.fst (fun _ _ => rfl) now connection state

end

variable {β : Type} [Backend β]

/-- The backends that the messages are handled with when all that has arrived is handled. -/
def consults (connection : Connection) (now : Nat) (backend : β) : List β :=
  (connection.drain (noting handling) now ((.empty, backend), [])).2.2.map Prod.snd

/-- A closed connection has no messages handled. -/
theorem consults_of_closed {connection : Connection} (now : Nat) (backend : β)
    (hclosed : ¬ connection.isOpen = true) : connection.consults now backend = [] := by
  rw [consults, drain_closed hclosed]
  rfl

theorem handleAll_of_closed {connection : Connection} (now : Nat) (backend : β)
    (hclosed : ¬ connection.isOpen = true) :
    connection.handleAll now backend = (.empty, connection, backend) := by
  rw [handleAll_eq, drain_closed hclosed]

/-- How a connection stands whose client has sent requests only: what its stream was offered is
accounted for, and it was taken but for a part of the last frame of a connection that is closed. -/
structure Accounts (connection : Connection) (handled : List (Request × β)) (lost : Bytes) :
    Prop where
  account : Account handled connection.outlet.letters connection.isOpen
  lacks : connection.outlet.Lacks lost
  whole : connection.isOpen = true → lost = []

variable {connection after : Connection} {handled : List (Request × β)} {lost : Bytes}
  {request : Request} {backend : β}

theorem Accounts.of_eq (h : connection.Accounts handled lost)
    (hlog : after.outlet.log = connection.outlet.log) (hopen : after.isOpen = connection.isOpen) :
    after.Accounts handled lost := by
  have hletters : after.outlet.letters = connection.outlet.letters := by
    rw [Outlet.letters, hlog, Outlet.letters]
  have hbytes : after.outlet.bytes = connection.outlet.bytes := by
    rw [Outlet.bytes, Outlet.taken, hlog, Outlet.bytes, Outlet.taken]
  refine ⟨?_, ?_, ?_⟩
  · rw [hletters, hopen]
    exact h.account
  · rw [Outlet.Lacks, hletters, hbytes]
    exact h.lacks
  · rw [hopen]
    exact h.whole

theorem Accounts.reads (h : connection.Accounts handled lost) (hreads : connection.Reads after) :
    after.Accounts handled lost :=
  h.of_eq (by rw [hreads.outlet_eq]) hreads.isOpen_eq

theorem Accounts.close (h : connection.Accounts handled lost) :
    connection.close.Accounts handled lost := by
  refine ⟨?_, h.lacks, nofun⟩
  have haccount := h.account
  cases hopen : connection.isOpen with
  | true =>
    rw [hopen] at haccount
    exact .closed haccount
  | false =>
    rw [hopen] at haccount
    exact haccount

/-- What an open connection conveys goes behind its letters. -/
theorem Accounts.conveys (h : connection.Accounts handled lost) (hopen : connection.isOpen = true)
    {messages : List ServerMessage} {whole : Bool}
    (hconveys : connection.outlet.Conveys (messages.map ServerMessage.payload?) whole
      after.outlet) (hafter : after.isOpen = whole) {grown : List (Request × β)}
    (hgrows : ∀ bodies, ServerMessage.Offered messages bodies whole →
      Account grown (connection.outlet.letters ++ bodies) whole) :
    ∃ lost, after.Accounts grown lost := by
  have hlacks := h.lacks
  rw [h.whole hopen] at hlacks
  obtain ⟨bodies, later, lost, hmessages, hletters, hlost, hwhole⟩ := hconveys.letters_eq hlacks
  refine ⟨lost, ?_, hlost, fun hstill => (hwhole (hafter ▸ hstill)).2⟩
  rw [hletters, hafter]
  exact hgrows bodies ⟨later, hmessages, fun h => (hwhole h).1⟩

theorem Accounts.answers (h : connection.Accounts handled lost) (hopen : connection.isOpen = true)
    (hbody : request.HasBody connection.message) {whole : Bool}
    (hanswers : connection.Answers backend (some request) whole after) :
    ∃ lost, after.Accounts (handled ++ [(request, backend)]) lost := by
  have hconveys := hanswers.conveys
  rw [Body.code_of_hasBody hbody] at hconveys
  exact h.conveys hopen hconveys hanswers.isOpen_eq fun bodies hoffered =>
    .answered request backend (hopen ▸ h.account) hoffered

theorem Accounts.push (h : connection.Accounts handled lost) (event : Event) :
    ∃ lost, (connection.push event).2.Accounts handled lost := by
  rcases push_cases connection event with ⟨-, hsame⟩ | ⟨whole, hsends⟩
  · exact ⟨lost, by rwa [hsame]⟩
  · cases hopen : connection.isOpen with
    | false =>
      have hsame : (connection.push event).2 = connection := by
        simp [Connection.push, receives, hopen]
      exact ⟨lost, by rwa [hsame]⟩
    | true =>
      obtain ⟨output, outlet, hafter⟩ := hsends.eq hopen
      have hconveys : connection.outlet.Conveys
          ([ServerMessage.event event].map ServerMessage.payload?) whole _ := hsends.conveys
      exact h.conveys hopen hconveys (by rw [hafter]) fun bodies hoffered =>
        .told event (hopen ▸ h.account) hoffered

theorem Accounts.pushed (h : connection.Accounts handled lost) (events : List Event) :
    ∃ lost, (connection.pushed events).Accounts handled lost := by
  induction events generalizing connection lost with
  | nil => exact ⟨lost, h⟩
  | cons event events ih =>
    obtain ⟨lost, hpushed⟩ := h.push event
    exact ih hpushed

/-- Running over requests, a callback that handles goes on with the account, each request with the
backend that it was handled with. -/
theorem Serves.accounts {start now : Connection} {changed : EventSet} {bodies : List Bytes}
    {state : (EventSet × β) × List (EventSet × β)} {requests : List Request}
    (hserves : Serves (noting handling) start ((changed, backend), []) bodies now state)
    (hrequests : requests.map Request.payload? = bodies.map some)
    (h : start.Accounts handled lost) :
    state.2.length = requests.length ∧
      ∃ lost, now.Accounts (handled ++ requests.zip (state.2.map Prod.snd)) lost := by
  induction hserves generalizing requests with
  | start =>
    obtain rfl : requests = [] := by simpa using hrequests
    exact ⟨rfl, lost, by simpa using h⟩
  | reads _ hreads ih =>
    obtain ⟨hlength, lost, haccounts⟩ := ih hrequests
    exact ⟨hlength, lost, haccounts.reads hreads⟩
  | @handles bodies now state _ hopen ih =>
    rw [List.map_append, List.map_singleton] at hrequests
    obtain ⟨earlier, last, rfl, hearlier, hlast⟩ := List.map_eq_append_iff.mp hrequests
    obtain ⟨request, rfl, hpayload⟩ := List.map_eq_singleton_iff.mp hlast
    obtain ⟨hlength, lost, haccounts⟩ := ih hearlier
    obtain ⟨⟨changed, current⟩, noted⟩ := state
    have hbody := Request.hasBody_of_payload? hpayload
    rcases now.handle_cases current hopen with
      ⟨hmalformed, -⟩ | ⟨received, whole, after, hmeans, hanswers, hhandle⟩
    · exact absurd hmalformed (Body.not_malformed_of_hasBody hbody)
    · obtain rfl : received = some request := hmeans.unique hbody
      obtain ⟨lost, hafter⟩ := haccounts.answers hopen hbody hanswers
      simp only [noting, handling, hhandle]
      refine ⟨by simpa using hlength, lost, ?_⟩
      rw [List.map_append, List.zip_append (by simpa using hlength.symm), ← List.append_assoc]
      exact hafter

variable {sent : Bytes} {waiting : List Request}

/-- An open connection that has requests of its client before it: with what the client has sent and
what has not come yet, it holds their frames. -/
structure Listens (connection : Connection) (sent : Bytes) (waiting : List Request) : Prop where
  steady : connection.inlet.IsSteady
  lacks : connection.input.cursor < connection.phase.expected
  asks : ∃ payloads : List Bytes, waiting.map Request.payload? = payloads.map some ∧
    connection.collected ++ connection.inlet.pending ++ sent = FrameStream.joined payloads

/-- Bytes that come to a connection are before it instead of on their way. -/
theorem Listens.arrive {bytes left : Bytes} (h : connection.Listens sent waiting)
    (hbytes : bytes ≠ []) (hsent : sent = bytes ++ left) :
    Listens { connection with inlet := connection.inlet.push (.data bytes) } left waiting := by
  refine ⟨⟨h.steady.1, fun arrival harrival => ?_⟩, h.lacks, ?_⟩
  · rcases List.mem_append.mp harrival with hold | hnew
    · exact h.steady.2 arrival hold
    · rw [List.mem_singleton.mp hnew]
      simpa [Arrival.isSteady] using hbytes
  · obtain ⟨payloads, hpayloads, hasks⟩ := h.asks
    have hpending : (connection.inlet.push (.data bytes)).pending =
        connection.inlet.pending ++ bytes := by
      simp [Inlet.push, Inlet.pending]
    refine ⟨payloads, hpayloads, ?_⟩
    rw [hpending, ← List.append_assoc, List.append_assoc, ← hsent]
    exact hasks

/-- A request that is sent waits behind the others. -/
theorem Listens.ask (h : connection.Listens sent waiting) {request : Request} {payload : Bytes}
    (hpayload : request.payload? = some payload) :
    connection.Listens (sent ++ FrameStream.frame payload) (waiting ++ [request]) := by
  obtain ⟨payloads, hpayloads, hasks⟩ := h.asks
  refine ⟨h.steady, h.lacks, payloads ++ [payload], ?_, ?_⟩
  · rw [List.map_append, hpayloads, List.map_singleton, hpayload, List.map_append,
      List.map_singleton]
  · rw [← List.append_assoc, hasks, FrameStream.joined_append]
    simp only [FrameStream.joined, List.append_nil]

theorem Listens.push (h : connection.Listens sent waiting) (event : Event) :
    (connection.push event).2.Listens sent waiting := by
  rcases push_cases connection event with ⟨-, hsame⟩ | ⟨whole, hsends⟩
  · rwa [hsame]
  · generalize (connection.push event).2 = after at hsends
    cases hsends with
    | unwritable output | taken output | broken output => exact ⟨h.steady, h.lacks, h.asks⟩

theorem Listens.pushed (h : connection.Listens sent waiting) (events : List Event) :
    (connection.pushed events).Listens sent waiting := by
  induction events generalizing connection with
  | nil => exact h
  | cons event events ih => exact ih (h.push event)

/-- Handling all that has arrived takes up the first of the requests that wait. -/
theorem accounts_handleAll {now : Nat} {changed : EventSet} {left : β}
    (h : connection.Accounts handled lost) (hopen : connection.isOpen = true)
    (hlistens : connection.Listens sent waiting)
    (hall : connection.handleAll now backend = (changed, after, left)) :
    ∃ taken behind lost, waiting = taken ++ behind ∧
      (connection.consults now backend).length = taken.length ∧
      after.Accounts (handled ++ taken.zip (connection.consults now backend)) lost ∧
      after.Listens sent behind := by
  obtain ⟨hsteady, hlacks, payloads, hpayloads, hasks⟩ := hlistens
  have hdrain := serves_drain (noting handling) ((.empty, backend), []) now hopen
    (Nat.le_of_lt hlacks) hsteady
  have hplain := drain_noting handling now connection ((.empty, backend), [])
  rw [handleAll_eq, hplain] at hall
  unfold consults
  rcases hrun : connection.drain (noting handling) now ((.empty, backend), []) with ⟨final, state⟩
  rw [hrun] at hdrain hall
  simp only [Prod.mk.injEq] at hall
  obtain ⟨-, rfl, -⟩ := hall
  obtain ⟨bytes, hpending, hserved⟩ := hdrain
  have hshort : ∀ payload ∈ payloads, payload.length < BigEndian.span 2 := by
    intro payload hpayload
    have hmem : some payload ∈ waiting.map Request.payload? :=
      hpayloads ▸ List.mem_map_of_mem hpayload
    obtain ⟨request, -, hrequest⟩ := List.mem_map.mp hmem
    exact Frame.length_payload_lt hrequest
  rw [hpending, ← List.append_assoc, List.append_assoc] at hasks
  obtain ⟨rest, rfl, hrest⟩ := FrameStream.cut_of_append_eq hshort hasks
  rw [List.map_append] at hpayloads
  obtain ⟨taken, behind, rfl, htaken, hbehind⟩ := List.map_eq_append_iff.mp hpayloads
  obtain ⟨hlength, lost, haccounts⟩ := hserved.serves.accounts htaken h
  refine ⟨taken, behind, lost, rfl, by simpa using hlength, haccounts, hserved.steady,
    hserved.lacks, rest, hbehind, ?_⟩
  rw [hserved.collected_eq, List.append_assoc]
  exact hrest

end MeshControl.Connection
