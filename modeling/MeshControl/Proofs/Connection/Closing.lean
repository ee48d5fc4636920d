import MeshControl.Proofs.Connection.Confining

/-!
Why a connection is closed. A drain closes its connection where a read ends or fails, or in a
callback (`Connection.exists_closing`). Handling a message closes it if the message is malformed, if
an answer is too long for a frame, or if a write is not taken whole (`Connection.handle_closes`). So
what closes a connection that is handled is found in its stream, in its messages, or in its answers.
-/

namespace MeshControl

namespace Outlet

/-- A write was tried since an earlier time that was neither interrupted nor taken whole. -/
def BrokeSince (before after : Outlet) : Prop :=
  ∃ newer, after.log = newer ++ before.log ∧
    ∃ write ∈ newer, write.outcome ≠ .interrupted ∧ write.isWhole = false

variable {before middle after : Outlet} {letters : List (Option Bytes)}

theorem BrokeSince.later (h : before.BrokeSince middle) (hsuffix : middle.log <:+ after.log) :
    before.BrokeSince after := by
  obtain ⟨newer, hlog, write, hwrite, hbroke⟩ := h
  obtain ⟨newest, hnewest⟩ := hsuffix
  refine ⟨newest ++ newer, ?_, write, List.mem_append_right _ hwrite, hbroke⟩
  rw [List.append_assoc, ← hlog, hnewest]

theorem BrokeSince.earlier (h : middle.BrokeSince after) (hsuffix : before.log <:+ middle.log) :
    before.BrokeSince after := by
  obtain ⟨newer, hlog, write, hwrite, hbroke⟩ := h
  obtain ⟨older, holder⟩ := hsuffix
  refine ⟨newer ++ older, ?_, write, List.mem_append_left _ hwrite, hbroke⟩
  rw [List.append_assoc, holder, hlog]

theorem Wrote.brokeSince {bytes : Bytes} {outcome : WriteOutcome}
    (h : before.Wrote bytes outcome after) (hpart : outcome ≠ .took bytes.length) :
    before.BrokeSince after := by
  obtain ⟨retries, hlog⟩ := h.log_eq
  exact ⟨_, hlog, _, List.mem_cons_self .., h.settled, decide_eq_false hpart⟩

/-- Letters are conveyed whole unless one of them cannot be written or a write breaks. -/
theorem Conveys.broke (h : before.Conveys letters false after) :
    none ∈ letters ∨ before.BrokeSince after := by
  generalize hfalse : false = whole at h
  induction h with
  | done => cases hfalse
  | unwritable => exact .inl (List.mem_cons_self ..)
  | broken _ hwrote hpart => exact .inr (hwrote.brokeSince hpart)
  | taken hwrote _ ih =>
    rcases ih hfalse with hnone | hbroke
    · exact .inl (List.mem_cons_of_mem _ hnone)
    · exact .inr (hbroke.earlier hwrote.suffix)

end Outlet

namespace Connection

variable {connection next after : Connection}

theorem Offers.log_suffix (h : connection.Offers after) :
    connection.outlet.log <:+ after.outlet.log := by
  obtain ⟨_, _, hconveys, -⟩ := h.conveys
  exact hconveys.log_suffix

/-- The states that a drain comes to each time round, with the state of its callback. -/
inductive Comes {σ : Type} (onMessage : Connection → σ → Connection × σ) (now : Nat) :
    Connection → σ → Connection → σ → Prop where
  | here (connection : Connection) (state : σ) :
    Comes onMessage now connection state connection state
  | again {connection next current : Connection} {state left : σ}
    (hopen : connection.isOpen = true) (hfill : connection.fill now = (.again, next))
    (hrest : Comes onMessage now next state current left) :
    Comes onMessage now connection state current left
  | header {connection next current : Connection} {state left : σ}
    (hopen : connection.isOpen = true) (hfill : connection.fill now = (.complete, next))
    (hphase : next.phase = .header)
    (hrest : Comes onMessage now next.enterBody state current left) :
    Comes onMessage now connection state current left
  | body {connection next handled current : Connection} {state middle left : σ} {length : UInt16}
    (hopen : connection.isOpen = true) (hfill : connection.fill now = (.complete, next))
    (hphase : next.phase = .body length)
    (hmessage : onMessage { next with position := 0 } state = (handled, middle))
    (hrest : Comes onMessage now (handled.leaveBody next.inlet) middle current left) :
    Comes onMessage now connection state current left

section

variable {σ : Type} {onMessage : Connection → σ → Connection × σ} {now : Nat} {state : σ}

/-- An attempt that stops and leaves the connection closed has met the end or a failure of the
stream. -/
theorem reading?_of_stop_of_closed (hcollecting : connection.IsCollecting)
    (hopen : connection.isOpen = true) (hfill : connection.fill now = (.stop, next))
    (hclosed : next.isOpen = false) :
    ∃ count given, connection.reading? = some (count, given) ∧
      (given = .ended ∨ given = .failed) := by
  rcases fill_cases hcollecting hfill with
    ⟨-, hstop, -⟩ | ⟨hlacking, input, given, inlet, hreserve, hread, hafter⟩
  · cases hstop
  · have hreading := reading?_of_reserve hlacking hreserve
    rw [hread] at hreading
    cases given with
    | ended => exact ⟨_, _, hreading, .inl rfl⟩
    | failed => exact ⟨_, _, hreading, .inr rfl⟩
    | data bytes | wouldBlock | interrupted =>
      obtain ⟨-, rfl⟩ := Prod.mk.inj hafter
      have hstill : connection.isOpen = false := hclosed
      rw [hopen] at hstill
      cases hstill

/-- A drain that closes its connection does so where a read has met the end or a failure of the
stream, or in the callback. -/
theorem exists_closing (hcollecting : connection.IsCollecting)
    (hopen : connection.isOpen = true)
    (hclosed : (drain onMessage now connection state).1.isOpen = false) :
    ∃ current left, Comes onMessage now connection state current left ∧
      current.isOpen = true ∧ current.IsCollecting ∧
      ((∃ count given, current.reading? = some (count, given) ∧
          (given = .ended ∨ given = .failed)) ∨
        ∃ next length, current.fill now = (.complete, next) ∧ next.phase = .body length ∧
          (onMessage { next with position := 0 } left).1.isOpen = false ∧
          (drain onMessage now connection state).1 =
            (onMessage { next with position := 0 } left).1.leaveBody next.inlet) := by
  induction connection, state using drain.induct onMessage now with
  | case1 connection state _ next hfill =>
    rw [drain_stop hopen hfill] at hclosed
    have hread := reading?_of_stop_of_closed hcollecting hopen hfill hclosed
    exact ⟨connection, state, .here .., hopen, hcollecting, .inl hread⟩
  | case2 connection state _ next hfill _ ih =>
    rw [drain_again hopen hfill] at hclosed ⊢
    obtain ⟨-, hnext, -⟩ := fill_bytes hcollecting hfill
    obtain ⟨-, hstill⟩ := sameStanding_fill hfill
    obtain ⟨current, left, hcomes, hrest⟩ := ih hnext ((hstill (by simp)).trans hopen) hclosed
    exact ⟨current, left, .again hopen hfill hcomes, hrest⟩
  | case3 connection state _ next hfill hphase _ ih =>
    rw [drain_header hopen hfill hphase] at hclosed ⊢
    obtain ⟨-, hstill⟩ := sameStanding_fill hfill
    obtain ⟨current, left, hcomes, hrest⟩ :=
      ih isCollecting_enterBody ((hstill (by simp)).trans hopen) hclosed
    exact ⟨current, left, .header hopen hfill hphase hcomes, hrest⟩
  | case4 connection state _ next hfill length hphase handled middle hmessage _ ih =>
    rw [drain_body hopen hfill hphase hmessage] at hclosed ⊢
    cases hhandled : handled.isOpen with
    | true =>
      obtain ⟨current, left, hcomes, hrest⟩ := ih (isCollecting_leaveBody _) hhandled hclosed
      exact ⟨current, left, .body hopen hfill hphase hmessage hcomes, hrest⟩
    | false =>
      -- A closed connection is not attended again, so the drain ends with what the callback left.
      have hshut : ¬ (handled.leaveBody next.inlet).isOpen = true := Bool.eq_false_iff.mp hhandled
      refine ⟨connection, state, .here .., hopen, hcollecting,
        .inr ⟨next, length, hfill, hphase, ?_, ?_⟩⟩
      · rw [hmessage]
        exact hhandled
      · rw [drain_closed hshut, hmessage]
  | case5 connection state hshut => exact absurd hopen hshut

end

section

variable {β : Type} [Backend β] {backend : β} {now : Nat}

theorem Comes.offers {state left : EventSet × β}
    (h : Comes handling now connection state next left) : connection.Offers next := by
  induction h with
  | here => exact .of_outlet_eq rfl fun h => h
  | again _ hfill _ ih => exact (offers_fill hfill).trans ih
  | @header _ next _ _ _ _ hfill _ _ ih =>
    have hturned : next.Offers next.enterBody := .of_outlet_eq rfl fun h => h
    exact ((offers_fill hfill).trans hturned).trans ih
  | @body _ next handled _ state _ _ _ _ hfill _ hmessage _ ih =>
    have hready : next.Offers { next with position := 0 } := .of_outlet_eq rfl fun h => h
    have hhandled := offers_handle { next with position := 0 } state.2
    have hcallback : ({ next with position := 0 }.handle state.2).2.1 = handled :=
      congrArg Prod.fst hmessage
    rw [hcallback] at hhandled
    have hleft : handled.Offers (handled.leaveBody next.inlet) := .of_outlet_eq rfl fun h => h
    exact ((offers_fill hfill).trans (hready.trans (hhandled.trans hleft))).trans ih

/-- Handling a message closes an open connection if the message is malformed, if an answer is too
long for a frame, or if a write is not taken whole, and for no other reason. -/
theorem handle_closes (backend : β) (hopen : connection.isOpen = true)
    (hclosed : (connection.handle backend).2.1.isOpen = false) :
    Body.Malformed connection.message ∨
      (∃ received, Body.Means connection.message received ∧
        ∃ message ∈ Backend.answers backend (Body.code connection.message) received,
          ¬ message.Fits) ∨
      connection.outlet.BrokeSince (connection.handle backend).2.1.outlet := by
  rcases connection.handle_cases backend hopen with
    ⟨hmalformed, -⟩ | ⟨received, whole, after, hmeans, hanswers, hhandle⟩
  · exact .inl hmalformed
  · rw [hhandle] at hclosed ⊢
    obtain rfl : whole = false := hanswers.isOpen_eq.symm.trans hclosed
    rcases hanswers.conveys.broke with hnone | hbroke
    · obtain ⟨message, hmem, hpayload⟩ := List.mem_map.mp hnone
      exact .inr (.inl ⟨received, hmeans, message, hmem, message.payload?_eq_none_iff.mp hpayload⟩)
    · exact .inr (.inr hbroke)

/-- What goes wrong with the stream or with a message of a connection while it is handled: its
stream ends or fails, a message is shorter than a type code or not what its type code says, or an
answer is too long for a frame. -/
inductive Trouble (now : Nat) (backend : β) (before : Connection) : Prop where
  | unreadable {current : Connection} {state : EventSet × β} {count : Nat} {given : ReadOutcome}
    (hcomes : Comes handling now before (.empty, backend) current state)
    (hopen : current.isOpen = true) (hread : current.reading? = some (count, given))
    (hgiven : given = .ended ∨ given = .failed)
  | malformed {current next : Connection} {state : EventSet × β} {length : UInt16}
    (hcomes : Comes handling now before (.empty, backend) current state)
    (hopen : current.isOpen = true) (hfill : current.fill now = (.complete, next))
    (hphase : next.phase = .body length) (hmalformed : Body.Malformed next.message)
  | unanswerable {current next : Connection} {state : EventSet × β} {length : UInt16}
    {received : Option Request} {message : ServerMessage}
    (hcomes : Comes handling now before (.empty, backend) current state)
    (hopen : current.isOpen = true) (hfill : current.fill now = (.complete, next))
    (hphase : next.phase = .body length) (hmeans : Body.Means next.message received)
    (hmem : message ∈ Backend.answers state.2 (Body.code next.message) received)
    (hlong : ¬ message.Fits)

/-- Handling all that arrives closes a connection that is in trouble, or one of whose writes was not
taken whole, and no other. -/
theorem handleAll_closes (now : Nat) (backend : β) (hcollecting : connection.IsCollecting)
    (hopen : connection.isOpen = true)
    (hclosed : (connection.handleAll now backend).2.1.isOpen = false) :
    connection.Trouble now backend ∨
      connection.outlet.BrokeSince (connection.handleAll now backend).2.1.outlet := by
  change (drain handling now connection (.empty, backend)).1.isOpen = false at hclosed
  obtain ⟨current, left, hcomes, hgoing, hstill, hread | hmessage⟩ :=
    exists_closing hcollecting hopen hclosed
  · obtain ⟨count, given, hreading, hgiven⟩ := hread
    exact .inl (.unreadable hcomes hgoing hreading hgiven)
  · obtain ⟨next, length, hfill, hphase, hshut, hfinal⟩ := hmessage
    obtain ⟨-, hready⟩ := sameStanding_fill hfill
    have hnext : isOpen { next with position := 0 } = true := (hready (by simp)).trans hgoing
    rcases handle_closes left.2 hnext hshut with
      hmalformed | ⟨received, hmeans, message, hmem, hlong⟩ | hbroke
    · exact .inl (.malformed hcomes hgoing hfill hphase hmalformed)
    · exact .inl (.unanswerable hcomes hgoing hfill hphase hmeans hmem hlong)
    · have hlog := (hcomes.offers.trans (offers_fill hfill)).log_suffix
      right
      change connection.outlet.BrokeSince
        (drain handling now connection (.empty, backend)).1.outlet
      rw [hfinal]
      exact hbroke.earlier hlog

end

end Connection

end MeshControl
