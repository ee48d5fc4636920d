import Mathlib.Logic.Relation
import MeshControl.Proofs.Connection.Exhausting
import MeshControl.Proofs.Connection.Offering

/-!
Everything that can be done to a connection, as steps. Whoever holds a connection may read its
message, answer it, subscribe and close its peer, exchange its stream, and read on; a callback of a
drain may do the same, and even start a drain of its own. `Connection.Moves` is any number of such
steps in any order. The program's own operations on a connection are among them (`moves_drain`,
`moves_handleAll`, `moves_push`), so what the steps keep holds of every run.
-/

namespace MeshControl

namespace Exchange

/-- Reading on in a message moves the position or closes the connection. -/
theorem leaves_read {α : Type} (decoder : Decoder α) (connection : Connection) :
    ∃ position isOpen, (read decoder).leaves connection = { connection with position, isOpen } ∧
      (isOpen = true → connection.isOpen = true) := by
  unfold leaves read
  by_cases hopen : connection.isOpen = true
  · rw [if_pos hopen]
    cases decoder (Reader.resume connection.message connection.position) with
    | ok value reader => exact ⟨_, _, rfl, fun h => h⟩
    | error e reader => exact ⟨_, false, rfl, (absurd · Bool.false_ne_true)⟩
  · rw [if_neg hopen]
    exact ⟨_, _, rfl, fun h => h⟩

theorem leaves_writeFrame (frame : Bytes) (connection : Connection) :
    ∃ outlet isOpen, (writeFrame frame).leaves connection = { connection with outlet, isOpen } ∧
      (isOpen = true → connection.isOpen = true) := by
  unfold leaves writeFrame
  cases hwrite : connection.outlet.write frame with
  | mk taken outlet =>
    cases taken with
    | error fault => exact ⟨outlet, false, rfl, (absurd · Bool.false_ne_true)⟩
    | ok count =>
      by_cases hcount : count = frame.length
      · simp only [if_pos hcount]
        exact ⟨outlet, _, rfl, fun h => h⟩
      · simp only [if_neg hcount]
        exact ⟨outlet, false, rfl, (absurd · Bool.false_ne_true)⟩

/-- Sending a message writes to the stream and may close the connection. -/
theorem leaves_compose (type : MessageType) (space : Nat) (composition : Composition)
    (connection : Connection) :
    ∃ output outlet isOpen, (compose type space composition).leaves connection =
        { connection with output, outlet, isOpen } ∧
      (isOpen = true → connection.isOpen = true) := by
  by_cases hopen : connection.isOpen = true
  · cases hframe : Frame.compose type space composition connection.output with
    | error e output =>
      simp only [leaves, compose, if_pos hopen, hframe]
      exact ⟨output, _, false, rfl, (absurd · Bool.false_ne_true)⟩
    | ok frame output =>
      obtain ⟨outlet, isOpen, hwritten, hstill⟩ :=
        leaves_writeFrame frame { connection with output }
      have hcompose : (compose type space composition).leaves connection =
          (writeFrame frame).leaves { connection with output } := by
        simp only [leaves, compose, if_pos hopen, hframe]
      exact ⟨output, outlet, isOpen, hcompose.trans hwritten, hstill⟩
  · simp only [leaves, compose, if_neg hopen]
    exact ⟨_, _, _, rfl, fun h => h⟩

end Exchange

namespace Connection

/-- One thing that may be done to a connection. -/
inductive Step (connection : Connection) : Connection → Prop where
  | close : Step connection connection.close
  | subscribe (kind : EventKind) : Step connection (connection.subscribe kind)
  /-- The type code that replies repeat is set. -/
  | note (code : UInt16) : Step connection { connection with messageCode := code }
  /-- The peer counts as active. -/
  | touch (now : Nat) : Step connection { connection with lastActivity := now }
  /-- Something becomes of the stream. -/
  | stream (inlet : Inlet) (outlet : Outlet) : Step connection { connection with inlet, outlet }
  | restart : Step connection (Exchange.restart.leaves connection)
  | read {α : Type} (decoder : Decoder α) :
    Step connection ((Exchange.read decoder).leaves connection)
  | compose (type : MessageType) (space : Nat) (composition : Composition) :
    Step connection ((Exchange.compose type space composition).leaves connection)
  | fill (now : Nat) : Step connection (connection.fill now).2
  | enterBody (hphase : connection.phase = .header) : Step connection connection.enterBody
  | leaveBody : Step connection (connection.leaveBody connection.inlet)

/-- What a connection may become. -/
def Moves : Connection → Connection → Prop := Relation.ReflTransGen Step

variable {connection middle next : Connection}

theorem Moves.refl (connection : Connection) : connection.Moves connection :=
  Relation.ReflTransGen.refl

theorem Moves.trans (hfirst : connection.Moves middle) (hsecond : middle.Moves next) :
    connection.Moves next :=
  Relation.ReflTransGen.trans hfirst hsecond

theorem Step.moves (h : connection.Step next) : connection.Moves next :=
  Relation.ReflTransGen.single h

/-- What every step keeps, all that may be done keeps. -/
theorem Moves.keeps {motive : Connection → Prop} (h : connection.Moves next)
    (hstep : ∀ {now later : Connection}, now.Step later → motive now → motive later)
    (hstart : motive connection) : motive next := by
  induction h with
  | refl => exact hstart
  | tail _ hlast ih => exact hstep hlast ih

/-- What never changes in a connection, and what changes in one direction only: it keeps its id, is
not opened again, and loses no subscription. -/
structure Continues (before after : Connection) : Prop where
  id_eq : after.id = before.id
  isOpen : after.isOpen = true → before.isOpen = true
  isSubscribed : ∀ kind, before.isSubscribed kind = true → after.isSubscribed kind = true

theorem Continues.refl (connection : Connection) : connection.Continues connection :=
  ⟨rfl, fun h => h, fun _ h => h⟩

theorem Continues.trans (hfirst : connection.Continues middle) (hsecond : middle.Continues next) :
    connection.Continues next where
  id_eq := hsecond.id_eq.trans hfirst.id_eq
  isOpen h := hfirst.isOpen (hsecond.isOpen h)
  isSubscribed kind h := hsecond.isSubscribed kind (hfirst.isSubscribed kind h)

theorem Step.continues (h : connection.Step next) : connection.Continues next := by
  cases h with
  | close => exact ⟨rfl, (absurd · Bool.false_ne_true), fun _ h => h⟩
  | subscribe kind =>
    refine ⟨rfl, fun h => h, fun other h => ?_⟩
    change (connection.subscriptions.insert kind).contains other = true
    rw [EventSet.contains_insert, Bool.or_eq_true]
    exact .inr h
  | read decoder =>
    obtain ⟨_, _, hread, hopen⟩ := Exchange.leaves_read decoder connection
    rw [hread]
    exact ⟨rfl, hopen, fun _ h => h⟩
  | compose type space composition =>
    obtain ⟨_, _, _, hsent, hopen⟩ := Exchange.leaves_compose type space composition connection
    rw [hsent]
    exact ⟨rfl, hopen, fun _ h => h⟩
  | fill now =>
    obtain ⟨⟨hid, hopen, hsubscriptions, -⟩, -⟩ :=
      sameStanding_fill (Prod.eta (connection.fill now)).symm
    refine ⟨hid, hopen, fun kind h => ?_⟩
    rw [isSubscribed, hsubscriptions]
    exact h
  | note | touch | stream | restart | enterBody | leaveBody =>
    exact ⟨rfl, fun h => h, fun _ h => h⟩

theorem Moves.continues (h : connection.Moves next) : connection.Continues next :=
  h.keeps (motive := connection.Continues) (fun hstep hnow => hnow.trans hstep.continues)
    (.refl connection)

theorem moves_fill {now : Nat} {outcome : Fill} (hfill : connection.fill now = (outcome, next)) :
    connection.Moves next := by
  have hstep : connection.Step (connection.fill now).2 := .fill now
  rw [hfill] at hstep
  exact hstep.moves

/-- Going back to the length, with any stream, is a change of the stream and a step. -/
theorem moves_leaveBody (connection : Connection) (inlet : Inlet) :
    connection.Moves (connection.leaveBody inlet) :=
  (Step.stream inlet connection.outlet).moves.trans Step.leaveBody.moves

/-- Passes lie on a way from one connection to another. -/
structure Carries (first : Connection) (passes : List Pass) (last : Connection) : Prop where
  moves : first.Moves last
  moves_of_mem : ∀ pass ∈ passes,
    first.Moves pass.before ∧ pass.before.Moves pass.after ∧ pass.after.Moves last

theorem Carries.nil (connection : Connection) : connection.Carries [] connection :=
  ⟨.refl connection, by simp⟩

/-- A pass goes before others, with what is done between it and them. -/
theorem Carries.cons {after last : Connection} {outcome : Fill} {passes : List Pass}
    (hpass : connection.Moves after) (hturn : after.Moves next)
    (hrest : next.Carries passes last) :
    connection.Carries (⟨connection, outcome, after⟩ :: passes) last := by
  have hfirst := hpass.trans hturn
  refine ⟨hfirst.trans hrest.moves, List.forall_mem_cons.mpr
    ⟨⟨.refl _, hpass, hturn.trans hrest.moves⟩, fun pass hmem => ?_⟩⟩
  obtain ⟨hbefore, hafter⟩ := hrest.moves_of_mem pass hmem
  exact ⟨hfirst.trans hbefore, hafter⟩

section

variable {σ : Type} {onMessage : Connection → σ → Connection × σ} {now : Nat}

/-- The passes of a drain are steps, if what its callback does is. -/
theorem Passes.moves {final : Connection} {state left : σ} {passes : List Pass}
    (h : Passes onMessage now connection state passes final left)
    (hcallback : ∀ (current : Connection) (state : σ), current.Moves (onMessage current state).1) :
    connection.Carries passes final := by
  induction h with
  | closed => exact .nil _
  | stop _ hfill => exact .cons (moves_fill hfill) (.refl _) (.nil _)
  | again _ hfill _ ih => exact .cons (moves_fill hfill) (.refl _) ih
  | header _ hfill hphase _ ih =>
    exact .cons (moves_fill hfill) (Step.enterBody hphase).moves ih
  | @body _ next handled _ state _ _ _ _ _ hfill _ hmessage _ ih =>
    have hhandled : next.Moves handled := by
      have hcalled := hcallback { next with position := 0 } state
      rw [hmessage] at hcalled
      exact Step.restart.moves.trans hcalled
    exact .cons (moves_fill hfill) (hhandled.trans (moves_leaveBody handled next.inlet)) ih

theorem moves_drain
    (hcallback : ∀ (current : Connection) (state : σ), current.Moves (onMessage current state).1)
    (now : Nat) (connection : Connection) (state : σ) :
    connection.Moves (drain onMessage now connection state).1 := by
  obtain ⟨passes, hpasses, -⟩ := exists_passes onMessage now connection state
  exact (hpasses.moves hcallback).moves

end

end Connection

namespace Exchange

open Connection

variable {α γ : Type} {connection : Connection}

/-- A step of an exchange that does to a connection what may be done to it. -/
def Moving (step : Exchange α) : Prop :=
  ∀ connection : Connection, connection.Moves (step.leaves connection)

theorem Moving.pure (value : α) : Moving (return value) := fun connection => .refl connection

theorem Moving.bind {first : Exchange α} {rest : α → Exchange γ} (hfirst : first.Moving)
    (hrest : ∀ value, (rest value).Moving) : (first >>= rest).Moving := by
  intro connection
  have hmoves := hfirst connection
  unfold leaves at hmoves ⊢
  cases hresult : first connection with
  | error e after =>
    rw [hresult] at hmoves
    rw [bind_of_eq_error hresult]
    exact hmoves
  | ok value middle =>
    rw [hresult] at hmoves
    rw [bind_of_eq_ok hresult]
    exact hmoves.trans (hrest value middle)

theorem Moving.map {step : Exchange α} (change : α → γ) (h : step.Moving) :
    (change <$> step).Moving := by
  rw [map_eq_pure_bind]
  exact h.bind fun value => .pure (change value)

theorem moving_restart : restart.Moving := fun _ => Step.restart.moves

theorem moving_read (decoder : Decoder α) : (read decoder).Moving :=
  fun _ => (Step.read decoder).moves

theorem moving_sendMessage (message : ServerMessage) : (sendMessage message).Moving := by
  intro connection
  rw [sendMessage, send_eq_compose]
  exact (Step.compose ..).moves

theorem moving_respond (status : Status) : (respond status).Moving := by
  intro connection
  rw [leaves, respond_eq]
  exact moving_sendMessage _ connection

theorem moving_receive : receive.Moving := by
  refine moving_restart.bind fun _ => (moving_read Decoder.u16).bind fun code => ?_
  refine Moving.bind (fun _ => (Step.note code).moves) fun _ => ?_
  split
  · rename_i decoder hdecoder
    exact (moving_read decoder).map some
  · exact .pure none

section

variable {β : Type} [Backend β]

theorem moving_answerTunnelName (backend : β) : (answerTunnelName backend).Moving := by
  intro connection
  rw [leaves, answerTunnelName_eq]
  exact moving_sendMessage _ connection

theorem moving_answerSubscription (backend : β) (kind : EventKind) :
    (answerSubscription backend kind).Moving := by
  refine Moving.bind (fun _ => (Step.subscribe kind).moves) fun _ => ?_
  exact (moving_respond .noError).bind fun _ => moving_sendMessage _

theorem moving_serve (backend : β) : (serve backend).Moving := by
  refine moving_receive.bind fun received => ?_
  split
  · exact (moving_respond .invalid).bind fun _ => .pure none
  · exact (moving_answerSubscription backend _).bind fun _ => .pure none
  · exact (moving_answerTunnelName backend).bind fun _ => .pure none
  · exact .pure _

end

end Exchange

namespace Connection

variable {β : Type} [Backend β]

theorem moves_handle (connection : Connection) (backend : β) :
    connection.Moves (connection.handle backend).2.1 := by
  have hserved := Exchange.moving_serve backend connection
  unfold Exchange.leaves at hserved
  unfold handle
  cases hserve : Exchange.serve backend connection with
  | error e after => rwa [hserve] at hserved
  | ok change? middle =>
    rw [hserve] at hserved
    cases change? with
    | none => exact hserved
    | some change =>
      have hanswered := Exchange.moving_respond change.status middle
      unfold Exchange.leaves at hanswered
      dsimp only
      cases hrespond : Exchange.respond change.status middle with
      | error _ after | ok _ after =>
        rw [hrespond] at hanswered
        exact hserved.trans hanswered

theorem moves_handleAll (connection : Connection) (now : Nat) (backend : β) :
    connection.Moves (connection.handleAll now backend).2.1 := by
  have hcallback : ∀ (current : Connection) (state : EventSet × β),
      current.Moves (handling current state).1 :=
    fun current state => current.moves_handle state.2
  exact moves_drain hcallback now connection (.empty, backend)

theorem moves_of_handleAll_eq {now : Nat} {backend left : β} {changed : EventSet}
    {connection after : Connection}
    (h : connection.handleAll now backend = (changed, after, left)) : connection.Moves after := by
  have hmoves := connection.moves_handleAll now backend
  rwa [h] at hmoves

theorem moves_push (connection : Connection) (event : Event) :
    connection.Moves (connection.push event).2 := by
  have hsent := Exchange.moving_sendMessage (.event event) connection
  change connection.Moves ((Exchange.sendEvent event).leaves connection) at hsent
  unfold Exchange.leaves at hsent
  unfold push
  split
  · cases hsend : Exchange.sendEvent event connection <;> rwa [hsend] at hsent
  · exact .refl connection

end Connection

end MeshControl
