import MeshControl.Connection.Dispatch
import MeshControl.Proofs.Connection.Chunking

/-!
The states that a connection goes through while it handles what arrives. `Connection.Serves` has a
step for reading on, which changes nothing that a message is handled by or answered with, and a step
for handling the message at hand. A drain, and attending to any number of notices, take these steps
only, and the messages that they handle are the bodies that cutting what was read gives
(`serves_drain`, `serves_attend`).
-/

namespace MeshControl

namespace Connection

/-- Only what is still to arrive and how far reading has come may differ. -/
def Reads (connection next : Connection) : Prop :=
  ∃ inlet input phase position lastActivity,
    next = { connection with inlet, input, phase, position, lastActivity }

variable {connection middle next : Connection}

theorem Reads.refl (connection : Connection) : connection.Reads connection :=
  ⟨_, _, _, _, _, rfl⟩

theorem Reads.trans (hfirst : connection.Reads middle) (hsecond : middle.Reads next) :
    connection.Reads next := by
  obtain ⟨_, _, _, _, _, rfl⟩ := hfirst
  obtain ⟨_, _, _, _, _, rfl⟩ := hsecond
  exact ⟨_, _, _, _, _, rfl⟩

theorem Reads.isOpen_eq (h : connection.Reads next) : next.isOpen = connection.isOpen := by
  obtain ⟨_, _, _, _, _, rfl⟩ := h
  rfl

theorem Reads.outlet_eq (h : connection.Reads next) : next.outlet = connection.outlet := by
  obtain ⟨_, _, _, _, _, rfl⟩ := h
  rfl

theorem Reads.subscriptions_eq (h : connection.Reads next) :
    next.subscriptions = connection.subscriptions := by
  obtain ⟨_, _, _, _, _, rfl⟩ := h
  rfl

/-- On a steady stream an attempt to complete a phase does no more than read. -/
theorem reads_fill {now : Nat} {outcome : Fill} (hcollecting : connection.IsCollecting)
    (hsteady : connection.inlet.IsSteady) (hfill : connection.fill now = (outcome, next)) :
    connection.Reads next := by
  obtain ⟨hstill, -⟩ := fill_steady hcollecting hsteady hfill
  obtain ⟨inlet, isOpen, input, lastActivity, rfl⟩ := fill_frame hfill
  obtain rfl : isOpen = connection.isOpen := hstill
  exact ⟨_, _, _, _, _, rfl⟩

section

variable {σ : Type} {onMessage : Connection → σ → Connection × σ}

/-- A callback that does the same to the connection and to what a larger state shows makes the same
of a drain. -/
theorem drain_project {τ : Type} {larger : Connection → τ → Connection × τ} (shown : τ → σ)
    (hsame : ∀ connection state, onMessage connection (shown state) =
      ((larger connection state).1, shown (larger connection state).2))
    (now : Nat) (connection : Connection) (state : τ) :
    drain onMessage now connection (shown state) =
      ((drain larger now connection state).1, shown (drain larger now connection state).2) := by
  induction connection, state using drain.induct larger now with
  | case1 connection state hopen next hfill => rw [drain_stop hopen hfill, drain_stop hopen hfill]
  | case2 connection state hopen next hfill _ ih =>
    rw [drain_again hopen hfill, drain_again hopen hfill]
    exact ih
  | case3 connection state hopen next hfill hphase _ ih =>
    rw [drain_header hopen hfill hphase, drain_header hopen hfill hphase]
    exact ih
  | case4 connection state hopen next hfill length hphase handled state' hmessage _ ih =>
    have hshown :
        onMessage { next with position := 0 } (shown state) = (handled, shown state') := by
      rw [hsame, hmessage]
    rw [drain_body hopen hfill hphase hmessage, drain_body hopen hfill hphase hshown]
    exact ih
  | case5 connection state hclosed => rw [drain_closed hclosed, drain_closed hclosed]

/-- Keeping a record of a callback's runs changes nothing else. -/
theorem drain_recorded (onMessage : Connection → σ → Connection × σ) (now : Nat)
    (connection : Connection) (state : σ × List Delivery) :
    drain onMessage now connection state.1 = ((drain (recorded onMessage) now connection state).1,
      (drain (recorded onMessage) now connection state).2.1) :=
  drain_project Prod.fst (fun _ _ => rfl) now connection state

theorem attend_recorded (onMessage : Connection → σ → Connection × σ) (notices : List Notice)
    (connection : Connection) (state : σ × List Delivery) :
    attend onMessage notices connection state.1 =
      ((attend (recorded onMessage) notices connection state).1,
        (attend (recorded onMessage) notices connection state).2.1) := by
  induction notices generalizing connection state with
  | nil => rfl
  | cons notice notices ih =>
    simp only [attend]
    rw [drain_recorded onMessage notice.now _ state]
    exact ih _ _

/-- The states that a connection comes to from a start by reading and by running a callback on the
message at hand, with the bodies of the messages that the callback was run on. -/
inductive Serves (onMessage : Connection → σ → Connection × σ) (start : Connection) (state : σ) :
    List Bytes → Connection → σ → Prop where
  | start : Serves onMessage start state [] start state
  | reads {bodies : List Bytes} {now next : Connection} {left : σ}
    (hserves : Serves onMessage start state bodies now left) (hreads : now.Reads next) :
    Serves onMessage start state bodies next left
  | handles {bodies : List Bytes} {now : Connection} {left : σ}
    (hserves : Serves onMessage start state bodies now left) (hopen : now.isOpen = true) :
    Serves onMessage start state (bodies ++ [now.message]) (onMessage now left).1
      (onMessage now left).2

variable {start : Connection} {origin : σ}

/-- A drain on a steady stream reads and runs its callback, and does nothing else. -/
theorem Serves.drain (onMessage : Connection → σ → Connection × σ) (now : Nat)
    (connection : Connection) (state : σ × List Delivery)
    (hcollecting : connection.IsCollecting) (hsteady : connection.inlet.IsSteady)
    (hserves : Serves onMessage start origin (state.2.map Delivery.body) connection state.1) :
    Serves onMessage start origin
      ((connection.drain (recorded onMessage) now state).2.2.map Delivery.body)
      (connection.drain (recorded onMessage) now state).1
      (connection.drain (recorded onMessage) now state).2.1 := by
  induction connection, state using drain.induct (recorded onMessage) now with
  | case1 connection state hopen next hfill =>
    rw [drain_stop hopen hfill]
    exact hserves.reads (reads_fill hcollecting hsteady hfill)
  | case2 connection state hopen next hfill _ ih =>
    rw [drain_again hopen hfill]
    exact ih (fill_bytes hcollecting hfill).2.1 (fill_steady hcollecting hsteady hfill).2.1
      (hserves.reads (reads_fill hcollecting hsteady hfill))
  | case3 connection state hopen next hfill hphase _ ih =>
    rw [drain_header hopen hfill hphase]
    have hnext := hserves.reads (reads_fill hcollecting hsteady hfill)
    exact ih (Nat.zero_le _) (fill_steady hcollecting hsteady hfill).2.1
      (hnext.reads ⟨_, _, _, _, _, rfl⟩)
  | case4 connection state hopen next hfill length hphase handled state' hmessage _ ih =>
    rw [drain_body hopen hfill hphase hmessage]
    have hreads := reads_fill hcollecting hsteady hfill
    have hready : Serves onMessage start origin (state.2.map Delivery.body)
        { next with position := 0 } state.1 := hserves.reads (hreads.trans ⟨_, _, _, _, _, rfl⟩)
    have hhandled := hready.handles (hreads.isOpen_eq.trans hopen)
    simp only [recorded, Prod.mk.injEq] at hmessage
    obtain ⟨rfl, rfl⟩ := hmessage
    apply ih (Nat.zero_le _) (fill_steady hcollecting hsteady hfill).2.1
    rw [List.map_append]
    exact hhandled.reads ⟨_, _, _, _, _, rfl⟩
  | case5 connection state hclosed =>
    rw [drain_closed hclosed]
    exact hserves

theorem Serves.attend (onMessage : Connection → σ → Connection × σ) {notices : List Notice}
    (hsteady : ∀ notice ∈ notices, ∀ arrival ∈ notice.arrivals, arrival.isSteady = true)
    (connection : Connection) (state : σ × List Delivery) {taken : Bytes}
    (hsplits : connection.Splits taken state.2)
    (hserves : Serves onMessage start origin (state.2.map Delivery.body) connection state.1) :
    Serves onMessage start origin
      ((attend (recorded onMessage) notices connection state).2.2.map Delivery.body)
      (attend (recorded onMessage) notices connection state).1
      (attend (recorded onMessage) notices connection state).2.1 := by
  induction notices generalizing connection state taken with
  | nil => exact hserves
  | cons notice notices ih =>
    have harrived := hsplits.arrive (hsteady notice (List.mem_cons_self ..))
    obtain ⟨bytes, -, hdrained⟩ :=
      (harrived.drain onMessage notice.now _ state taken).splits
    have hnext := Serves.drain onMessage notice.now (connection.arrive notice.arrivals) state
      harrived.collecting harrived.steady (hserves.reads ⟨_, _, _, _, _, rfl⟩)
    exact ih (fun later hlater => hsteady later (List.mem_cons_of_mem _ hlater)) _ _ hdrained hnext

/-- A connection that has taken up every message and holds no part of another. -/
structure IsAtRest (connection : Connection) : Prop where
  isOpen : connection.isOpen = true
  phase_eq : connection.phase = .header
  filled_eq : connection.input.filled = []
  arrivals_eq : connection.inlet.arrivals = []
  ended_eq : connection.inlet.ended = false

theorem splits_collected (hopen : connection.isOpen = true) (hcollecting : connection.IsCollecting)
    (hsteady : connection.inlet.IsSteady) : connection.Splits connection.collected [] where
  taken_eq := rfl
  collecting := hcollecting
  short := by simp
  steady := hsteady
  closedByLast := by simp [ClosedByLast, hopen]
  closed_clean hclosed := by simp [hopen] at hclosed

/-- A connection that has handled some messages has closed with the last of them, or it waits for
more of the message that it holds a part of. -/
structure Served (onMessage : Connection → σ → Connection × σ) (start : Connection) (state : σ)
    (taken : Bytes) (unread : List Arrival) (final : Connection) (left : σ) : Prop where
  serves : Serves onMessage start state (FrameStream.cut taken).bodies final left
  steady : final.inlet.IsSteady
  lacks : final.input.cursor < final.phase.expected
  collected_eq : final.collected = (FrameStream.cut taken).rest
  unread_of_open : final.isOpen = true → final.inlet.arrivals = unread
  rest_of_closed : final.isOpen = false → (FrameStream.cut taken).rest = []

theorem IsAtRest.cursor_eq (h : start.IsAtRest) : start.input.cursor = 0 := by
  rw [← Buffer.length_filled, h.filled_eq, List.length_nil]

theorem Splits.served {final : Connection} {taken : Bytes} {deliveries : List Delivery}
    {left : σ} {unread : List Arrival} (hsplits : final.Splits taken deliveries)
    (hlacks : final.input.cursor < final.phase.expected)
    (hserves : Serves onMessage start origin (deliveries.map Delivery.body) final left)
    (hunread : final.isOpen = true → final.inlet.arrivals = unread) :
    Served onMessage start origin taken unread final left := by
  have hcut := hsplits.cut_eq hlacks
  refine ⟨by rwa [hcut], hsplits.steady, hlacks, by rw [hcut], hunread, fun hclosed => ?_⟩
  obtain ⟨hphase, hcursor⟩ := hsplits.closed_clean hclosed
  have hfilled : final.input.filled = [] :=
    List.eq_nil_of_length_eq_zero (final.input.length_filled.trans hcursor)
  rw [hcut]
  simp [Connection.collected, hphase, hfilled, Phase.announced]

/-- Handling all that arrives on a connection that holds part of a message. -/
theorem serves_drain (onMessage : Connection → σ → Connection × σ) {start : Connection} (state : σ)
    (now : Nat) (hopen : start.isOpen = true) (hcollecting : start.IsCollecting)
    (hsteady : start.inlet.IsSteady) :
    let (final, left) := start.drain onMessage now state
    ∃ bytes, start.inlet.pending = bytes ++ final.inlet.pending ∧
      Served onMessage start state (start.collected ++ bytes)
        (Arrival.pastBlock start.inlet.arrivals) final left := by
  have hsplits := splits_collected hopen hcollecting hsteady
  have hdrains := hsplits.drain onMessage now start (state, []) _
  have hserves := Serves.drain onMessage now start (state, []) hcollecting hsteady .start
  rw [drain_recorded onMessage now start (state, [])]
  obtain ⟨bytes, hpending, hfinal⟩ := hdrains.splits
  exact ⟨bytes, hpending, hfinal.served hdrains.lacks hserves hdrains.past⟩

/-- Attending to notices from rest. -/
theorem serves_attend (onMessage : Connection → σ → Connection × σ) {start : Connection} (state : σ)
    {notices : List Notice} (hrest : start.IsAtRest)
    (hsteady : ∀ notice ∈ notices, ∀ arrival ∈ notice.arrivals, arrival.isSteady = true) :
    let (final, left) := attend onMessage notices start state
    ∃ taken, Notice.bytes notices = taken ++ final.inlet.pending ∧
      Served onMessage start state taken (Notice.unread [] notices) final left := by
  have hcollected : start.collected = [] := by
    simp [Connection.collected, hrest.phase_eq, hrest.filled_eq, Phase.announced]
  have hcursor := hrest.cursor_eq
  have hsplits : start.Splits [] [] := by
    rw [← hcollected]
    refine splits_collected hrest.isOpen ?_ ⟨hrest.ended_eq, by simp [hrest.arrivals_eq]⟩
    simp [IsCollecting, hcursor]
  have hlacks : start.input.cursor < start.phase.expected := by
    rw [hcursor, hrest.phase_eq]
    exact Nat.two_pos
  have hrun := hsplits.attend onMessage hsteady start (state, []) [] hlacks
  have hserves := Serves.attend onMessage hsteady start (state, []) hsplits .start
  rw [attend_recorded onMessage notices start (state, [])]
  obtain ⟨taken, hbytes, hfinal, hfinalLacks, hleft⟩ := hrun
  rw [hrest.arrivals_eq] at hleft
  refine ⟨taken, ?_, ?_⟩
  · simpa [Inlet.pending, hrest.arrivals_eq] using hbytes
  · rw [List.nil_append] at hfinal
    exact hfinal.served hfinalLacks hserves hleft

end

/-- Handling a message as the callback of a drain, with the kinds that have changed so far. -/
def handling {β : Type} [Backend β] (connection : Connection) :
    EventSet × β → Connection × EventSet × β
  | (changed, backend) =>
    let (more, connection, backend) := connection.handle backend
    (connection, changed.union more, backend)

/-- Handling all that arrives is a drain that handles. -/
theorem handleAll_eq {β : Type} [Backend β] (connection : Connection) (now : Nat) (backend : β) :
    connection.handleAll now backend =
      let (after, changed, left) := connection.drain handling now (.empty, backend)
      (changed, after, left) := rfl

end Connection

end MeshControl
