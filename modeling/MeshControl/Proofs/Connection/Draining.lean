import MeshControl.Proofs.Connection.Collecting
import MeshControl.Proofs.Connection.Reporting
import MeshControl.Proofs.Connection.Written

/-!
What a drain keeps. A property that reading keeps and that handling one message keeps is kept by a
whole drain (`drain_keeps`). The property of interest is how a connection stands with its peer: it
is up to date in a kind if the last event of the kind that has come to the peer carries the current
value. Handling a message keeps a connection up to date in every kind that it does not report as
changed, provided that replies are taken whole, and so does handling all that arrives.
-/

namespace MeshControl

namespace Connection

/-- Nothing changes in a connection that its standing with the peer depends on, except that it may
be closed. -/
structure SameStanding (connection next : Connection) : Prop where
  id_eq : next.id = connection.id
  isOpen : next.isOpen = true → connection.isOpen = true
  subscriptions_eq : next.subscriptions = connection.subscriptions
  log_eq : next.outlet.log = connection.outlet.log

theorem sameStanding_fill {connection next : Connection} {now : Nat} {outcome : Fill}
    (hfill : connection.fill now = (outcome, next)) :
    connection.SameStanding next ∧ (outcome ≠ .stop → next.isOpen = connection.isOpen) := by
  unfold fill at hfill
  by_cases hlacking : connection.lacking = 0
  · simp only [hlacking, if_true, Prod.mk.injEq] at hfill
    obtain ⟨-, rfl⟩ := hfill
    exact ⟨⟨rfl, fun h => h, rfl, rfl⟩, fun _ => rfl⟩
  · simp only [hlacking, if_false] at hfill
    cases hreserve : Encoder.reserve connection.lacking connection.input with
    | error e input =>
      simp only [hreserve, Prod.mk.injEq] at hfill
      obtain ⟨rfl, rfl⟩ := hfill
      exact ⟨⟨rfl, fun h => absurd h Bool.false_ne_true, rfl, rfl⟩, fun h => absurd rfl h⟩
    | ok _ input =>
      simp only [hreserve] at hfill
      cases hread : connection.inlet.read connection.lacking with
      | mk given inlet =>
        simp only [hread] at hfill
        cases given with
        | data bytes =>
          simp only [afterRead, Prod.mk.injEq] at hfill
          obtain ⟨-, rfl⟩ := hfill
          exact ⟨⟨rfl, fun h => h, rfl, rfl⟩, fun _ => rfl⟩
        | interrupted | wouldBlock =>
          simp only [afterRead, Prod.mk.injEq] at hfill
          obtain ⟨-, rfl⟩ := hfill
          exact ⟨⟨rfl, fun h => h, rfl, rfl⟩, fun _ => rfl⟩
        | ended | failed =>
          simp only [afterRead, Prod.mk.injEq] at hfill
          obtain ⟨rfl, rfl⟩ := hfill
          exact ⟨⟨rfl, fun h => absurd h Bool.false_ne_true, rfl, rfl⟩, fun h => absurd rfl h⟩

/-- What reading, turning to a body and the callback keep, a drain keeps. -/
theorem drain_keeps {σ : Type} {onMessage : Connection → σ → Connection × σ} {now : Nat}
    {motive : Connection → σ → Prop}
    (hfill : ∀ connection state outcome next, motive connection state →
      connection.fill now = (outcome, next) → motive next state)
    (henter : ∀ connection state, motive connection state → motive connection.enterBody state)
    (hmessage : ∀ connection state inlet, connection.isOpen = true → motive connection state →
      motive ((onMessage { connection with position := 0 } state).1.leaveBody inlet)
        (onMessage { connection with position := 0 } state).2)
    (connection : Connection) (state : σ) (hstart : motive connection state) :
    motive (drain onMessage now connection state).1 (drain onMessage now connection state).2 := by
  induction connection, state using drain.induct onMessage now with
  | case1 connection state hopen next heq =>
    rw [drain_stop hopen heq]
    exact hfill _ _ _ _ hstart heq
  | case2 connection state hopen next heq _ ih =>
    rw [drain_again hopen heq]
    exact ih (hfill _ _ _ _ hstart heq)
  | case3 connection state hopen next heq hphase _ ih =>
    rw [drain_header hopen heq hphase]
    exact ih (henter _ _ (hfill _ _ _ _ hstart heq))
  | case4 connection state hopen next heq length hphase handled state' hresult _ ih =>
    rw [drain_body hopen heq hphase hresult]
    apply ih
    obtain ⟨-, hstill⟩ := sameStanding_fill heq
    have hhandled := hmessage next state next.inlet ((hstill nofun).trans hopen)
      (hfill _ _ _ _ hstart heq)
    rw [hresult] at hhandled
    exact hhandled
  | case5 connection state hclosed =>
    rw [drain_closed hclosed]
    exact hstart

section

variable {β : Type} [Backend β] {backend left : β} {kind : EventKind} {flags : EventSet}
  {connection next after : Connection} {message : ServerMessage} {whole : Bool}

/-- The last event of a kind that has come to the peer carries the current value, if events of that
kind are sent to the peer. -/
def UpToDate (connection : Connection) (backend : β) (kind : EventKind) : Prop :=
  connection.receives kind = true →
    connection.outlet.lastEvent? kind = some (Backend.currentEvent backend kind)

theorem receives_iff : connection.receives kind = true ↔
    connection.isOpen = true ∧ connection.subscriptions.contains kind = true := by
  simp only [receives, isSubscribed, Bool.and_eq_true]

theorem UpToDate.of_closed (hclosed : connection.isOpen = false) :
    connection.UpToDate backend kind := by
  intro hreceives
  rw [(receives_iff.mp hreceives).1] at hclosed
  cases hclosed

theorem UpToDate.of_eq (h : connection.UpToDate backend kind)
    (hvalue : Backend.currentEvent left kind = Backend.currentEvent backend kind) :
    connection.UpToDate left kind := by
  intro hreceives
  rw [hvalue]
  exact h hreceives

theorem UpToDate.trans (h : connection.UpToDate backend kind)
    (hopen : next.isOpen = true → connection.isOpen = true)
    (hsubscriptions : next.subscriptions = connection.subscriptions)
    (hlast : next.outlet.lastEvent? kind = connection.outlet.lastEvent? kind) :
    next.UpToDate backend kind := by
  intro hreceives
  obtain ⟨hstill, hcontains⟩ := receives_iff.mp hreceives
  rw [hlast]
  exact h (receives_iff.mpr ⟨hopen hstill, hsubscriptions ▸ hcontains⟩)

theorem SameStanding.upToDate (hsame : connection.SameStanding next)
    (h : connection.UpToDate backend kind) : next.UpToDate backend kind :=
  h.trans hsame.isOpen hsame.subscriptions_eq (by simp only [Outlet.lastEvent?, hsame.log_eq])

theorem Sends.frame (h : connection.Sends message whole after) :
    after.id = connection.id ∧ after.subscriptions = connection.subscriptions ∧
      (after.isOpen = true → connection.isOpen = true ∧ whole = true) := by
  cases h with
  | unwritable output => exact ⟨rfl, rfl, nofun⟩
  | taken output => exact ⟨rfl, rfl, fun h => ⟨h, rfl⟩⟩
  | broken output => exact ⟨rfl, rfl, nofun⟩

theorem Sends.upToDate_of_reply {reply : Reply} (h : connection.Sends (.reply reply) whole after)
    (hupToDate : connection.UpToDate backend kind) : after.UpToDate backend kind := by
  obtain ⟨-, hsubscriptions, hopen⟩ := h.frame
  exact hupToDate.trans (fun h => (hopen h).1) hsubscriptions (h.lastEvent?_of_reply kind)

/-- Sending the current value of a kind brings the connection up to date in it, or closes it. -/
theorem Sends.upToDate_self
    (h : connection.Sends (.event (Backend.currentEvent backend kind)) whole after) :
    after.UpToDate backend kind := by
  intro hreceives
  obtain ⟨-, -, hopen⟩ := h.frame
  obtain ⟨-, rfl⟩ := hopen (receives_iff.mp hreceives).1
  have hlast := h.lastEvent?_of_event
  rw [Backend.kind_currentEvent] at hlast
  exact hlast

theorem Sends.upToDate_of_event {event : Event}
    (h : connection.Sends (.event event) whole after) (hkind : event.kind ≠ kind)
    (hupToDate : connection.UpToDate backend kind) : after.UpToDate backend kind := by
  obtain ⟨-, hsubscriptions, hopen⟩ := h.frame
  exact hupToDate.trans (fun h => (hopen h).1) hsubscriptions (h.lastEvent?_of_other hkind)

theorem Handles.frame (h : connection.Handles backend flags after left) :
    after.id = connection.id ∧ connection.outlet.log <:+ after.outlet.log := by
  cases h with
  | malformed => exact ⟨rfl, List.suffix_refl _⟩
  | foreign _ _ hreply => exact ⟨hreply.frame.1, hreply.log_suffix⟩
  | named _ hreply => exact ⟨hreply.frame.1, hreply.log_suffix⟩
  | unanswered _ hreply => exact ⟨hreply.frame.1, hreply.log_suffix⟩
  | subscribed _ hreply hevent =>
    exact ⟨hevent.frame.1.trans hreply.frame.1, hreply.log_suffix.trans hevent.log_suffix⟩
  | changed _ _ hreply => exact ⟨hreply.frame.1, hreply.log_suffix⟩

end

theorem upToDate_of_subscribed {β : Type} [Backend β] {backend : β} {kind added : EventKind}
    {connection replied after : Connection} {whole : Bool}
    (hreply : ((connection.parsed (.subscribe added)).subscribe added).Sends
      (.reply (.response added.requestType.code .noError)) true replied)
    (hevent : replied.Sends (.event (Backend.currentEvent backend added)) whole after)
    (hupToDate : connection.UpToDate backend kind) : after.UpToDate backend kind := by
  by_cases hkind : added = kind
  · subst hkind
    exact hevent.upToDate_self
  · refine hevent.upToDate_of_event (by rwa [Backend.kind_currentEvent])
      (hreply.upToDate_of_reply ?_)
    intro hreceives
    obtain ⟨hopen, hcontains⟩ := receives_iff.mp hreceives
    refine hupToDate (receives_iff.mpr ⟨hopen, ?_⟩)
    change (connection.subscriptions.insert added).contains kind = true at hcontains
    rwa [EventSet.contains_insert, decide_eq_false fun h => hkind h.symm,
      Bool.false_or] at hcontains

/-- Handling a message keeps the connection up to date in every kind that it does not report. -/
theorem Handles.upToDate {kind : EventKind} {flags : EventSet} {connection after : Connection}
    {backend left : MemoryBackend} (h : connection.Handles backend flags after left)
    (hwhole : after.outlet.RepliesWhole) (hsilent : flags.contains kind = false) :
    Backend.currentEvent left kind = Backend.currentEvent backend kind ∧
      (connection.UpToDate backend kind → after.UpToDate left kind) := by
  cases h with
  | malformed => exact ⟨rfl, fun _ => .of_closed rfl⟩
  | foreign _ _ hreply => exact ⟨rfl, fun h => hreply.upToDate_of_reply h⟩
  | named _ hreply => exact ⟨rfl, fun h => hreply.upToDate_of_reply h⟩
  | unanswered _ hreply =>
    -- The kind may be new among the subscriptions, but a connection that is closed gets no events.
    refine ⟨rfl, fun _ hreceives => ?_⟩
    obtain ⟨-, hcut⟩ := hreply.frame.2.2 (receives_iff.mp hreceives).1
    cases hcut
  | subscribed _ hreply hevent => exact ⟨rfl, upToDate_of_subscribed hreply hevent⟩
  | changed _ hchange hreply =>
    obtain rfl := hreply.whole_of_repliesWhole nofun hwhole
    rw [if_pos rfl] at hsilent
    obtain hvalue | ⟨hok, hkind⟩ := MemoryBackend.currentEvent_of_change? hchange kind
    · exact ⟨hvalue, fun h => (hreply.upToDate_of_reply h).of_eq hvalue⟩
    · rw [← hkind, Change.contains_changed hok] at hsilent
      cases hsilent

/-- How far handling has come since a start: what was written before is still on record, and if
replies are taken whole, every kind that is not reported has kept its value and the connection is up
to date in it. -/
structure HandledSince (start : Connection) (backend : MemoryBackend) (connection : Connection)
    (state : EventSet × MemoryBackend) : Prop where
  id_eq : connection.id = start.id
  log_suffix : start.outlet.log <:+ connection.outlet.log
  settled : connection.outlet.RepliesWhole → ∀ kind, state.1.contains kind = false →
    Backend.currentEvent state.2 kind = Backend.currentEvent backend kind ∧
      connection.UpToDate state.2 kind

namespace HandledSince

variable {start connection : Connection} {backend : MemoryBackend}
  {state : EventSet × MemoryBackend}

theorem refl (hupToDate : ∀ kind, start.UpToDate backend kind) (changed : EventSet) :
    start.HandledSince backend start (changed, backend) where
  id_eq := rfl
  log_suffix := List.suffix_refl _
  settled _ kind _ := ⟨rfl, hupToDate kind⟩

theorem sameStanding {next : Connection} (h : start.HandledSince backend connection state)
    (hsame : connection.SameStanding next) : start.HandledSince backend next state := by
  refine ⟨hsame.id_eq.trans h.id_eq, hsame.log_eq ▸ h.log_suffix, fun hwhole kind hsilent => ?_⟩
  obtain ⟨hvalue, hupToDate⟩ :=
    h.settled (hwhole.of_suffix (hsame.log_eq ▸ List.suffix_refl _)) kind hsilent
  exact ⟨hvalue, hsame.upToDate hupToDate⟩

theorem handle {after : Connection} {more : EventSet} {left : MemoryBackend}
    (h : start.HandledSince backend connection state)
    (hhandles : connection.Handles state.2 more after left) :
    start.HandledSince backend after (state.1.union more, left) := by
  obtain ⟨hid, hlog⟩ := hhandles.frame
  refine ⟨hid.trans h.id_eq, h.log_suffix.trans hlog, fun hwhole kind hsilent => ?_⟩
  rw [EventSet.contains_union, Bool.or_eq_false_iff] at hsilent
  obtain ⟨hvalue, hupToDate⟩ := h.settled (hwhole.of_suffix hlog) kind hsilent.1
  obtain ⟨hkept, hkeeps⟩ := hhandles.upToDate hwhole hsilent.2
  exact ⟨hkept.trans hvalue, hkeeps hupToDate⟩

end HandledSince

/-- Handling all that arrives on a connection keeps it up to date in every kind that is not
reported. -/
theorem handledSince_handleAll {connection : Connection} {backend : MemoryBackend} (now : Nat)
    (hupToDate : ∀ kind, connection.UpToDate backend kind) :
    connection.HandledSince backend (connection.handleAll now backend).2.1
      ((connection.handleAll now backend).1, (connection.handleAll now backend).2.2) := by
  refine drain_keeps (motive := connection.HandledSince backend) ?_ ?_ ?_
    connection (.empty, backend) (.refl hupToDate .empty)
  · intro current state outcome next h hfill
    exact h.sameStanding (sameStanding_fill hfill).1
  · intro current state h
    exact h.sameStanding ⟨rfl, fun h => h, rfl, rfl⟩
  · intro current state inlet hopen h
    have hready : connection.HandledSince backend { current with position := 0 } state :=
      h.sameStanding ⟨rfl, fun h => h, rfl, rfl⟩
    obtain ⟨more, after, left, hhandle, hhandles⟩ :=
      handles_handle { current with position := 0 } state.2 hopen
    simp only [hhandle]
    exact (hready.handle hhandles).sameStanding ⟨rfl, fun h => h, rfl, rfl⟩

end Connection

end MeshControl
