import MeshControl.Connection.Exchange
import MeshControl.Proofs.Message.Fitting

/-!
What sending a message does to an open connection. The frame of the message is offered to the stream
until a write is not interrupted; only if that write took the frame whole does the connection stay
open. A message without a body is not offered at all. `Connection.Sends` says this without the
buffer in which frames are built, and `sendMessage_cases` is the one lemma about sending that the
rest of the theory needs.
-/

namespace MeshControl

namespace Outlet

/-- One write of bytes and its outcome, behind any number of interrupted tries. -/
structure Wrote (before : Outlet) (bytes : Bytes) (outcome : WriteOutcome) (after : Outlet) :
    Prop where
  settled : outcome ≠ .interrupted
  within : ∀ count, outcome = .took count → count ≤ bytes.length
  log_eq : ∃ retries, after.log =
    ⟨bytes, outcome⟩ :: (List.replicate retries ⟨bytes, .interrupted⟩ ++ before.log)

theorem Wrote.suffix {before after : Outlet} {bytes : Bytes} {outcome : WriteOutcome}
    (h : before.Wrote bytes outcome after) : before.log <:+ after.log := by
  obtain ⟨retries, hlog⟩ := h.log_eq
  rw [hlog, ← List.cons_append]
  exact List.suffix_append ..

theorem Wrote.of_took {before : Outlet} {bytes : Bytes} {count : Nat} {upcoming : List Acceptance}
    (hcount : count ≤ bytes.length) :
    before.Wrote bytes (.took count) ⟨upcoming, ⟨bytes, .took count⟩ :: before.log⟩ where
  settled := by simp
  within _ h := by
    cases h
    exact hcount
  log_eq := ⟨0, rfl⟩

theorem Wrote.of_failed {before : Outlet} {bytes : Bytes} {fault : Fault}
    {upcoming : List Acceptance} :
    before.Wrote bytes (.failed fault) ⟨upcoming, ⟨bytes, .failed fault⟩ :: before.log⟩ where
  settled := by simp
  within _ h := by cases h
  log_eq := ⟨0, rfl⟩

theorem Wrote.of_interrupted {before middle after : Outlet} {bytes : Bytes}
    {outcome : WriteOutcome} (hlog : middle.log = ⟨bytes, .interrupted⟩ :: before.log)
    (h : middle.Wrote bytes outcome after) : before.Wrote bytes outcome after where
  settled := h.settled
  within := h.within
  log_eq := by
    obtain ⟨retries, hafter⟩ := h.log_eq
    refine ⟨retries + 1, ?_⟩
    rw [hafter, hlog, List.replicate_succ', List.append_assoc, List.singleton_append]

/-- What the stream's answer to a write is worth. -/
def outcome : Except Fault Nat → WriteOutcome
  | .ok count => .took count
  | .error fault => .failed fault

theorem wrote_of_offer (bytes : Bytes) (upcoming : List Acceptance) (before : Outlet) :
    before.Wrote bytes (outcome (offer bytes upcoming before.log).1)
      (offer bytes upcoming before.log).2 := by
  induction upcoming generalizing before with
  | nil => exact .of_took (Nat.le_refl _)
  | cons acceptance later ih =>
    cases acceptance with
    | whole => exact .of_took (Nat.le_refl _)
    | half => exact .of_took (Nat.div_le_self ..)
    | atMost count => exact .of_took (Nat.min_le_right ..)
    | failed fault => exact .of_failed
    | interrupted => exact .of_interrupted rfl (ih ⟨later, ⟨bytes, .interrupted⟩ :: before.log⟩)

theorem wrote_of_write {before after : Outlet} {bytes : Bytes} {taken : Except Fault Nat}
    (h : before.write bytes = (taken, after)) : before.Wrote bytes (outcome taken) after := by
  have hoffer := wrote_of_offer bytes before.upcoming before
  rw [show offer bytes before.upcoming before.log = (taken, after) from h] at hoffer
  exact hoffer

end Outlet

namespace Connection

/-- What sending a message may make of an open connection, and whether its frame was taken whole. -/
inductive Sends (before : Connection) (message : ServerMessage) : Bool → Connection → Prop where
  | unwritable (output : Buffer) (hnone : message.payload? = none) :
    Sends before message false { before with output }.close
  | taken {payload : Bytes} {outlet : Outlet} (output : Buffer)
    (hpayload : message.payload? = some payload)
    (hwrote : before.outlet.Wrote (FrameStream.frame payload)
      (.took (FrameStream.frame payload).length) outlet) :
    Sends before message true { before with output, outlet }
  | broken {payload : Bytes} {outcome : WriteOutcome} {outlet : Outlet} (output : Buffer)
    (hpayload : message.payload? = some payload)
    (hwrote : before.outlet.Wrote (FrameStream.frame payload) outcome outlet)
    (hpart : outcome ≠ .took (FrameStream.frame payload).length) :
    Sends before message false { before with output, outlet }.close

theorem Sends.eq {before after : Connection} {message : ServerMessage} {whole : Bool}
    (h : before.Sends message whole after) (hopen : before.isOpen = true) :
    ∃ output outlet, after = { before with output, outlet, isOpen := whole } := by
  cases h with
  | unwritable output => exact ⟨output, before.outlet, rfl⟩
  | taken output => exact ⟨output, _, by rw [← hopen]⟩
  | broken output => exact ⟨output, _, rfl⟩

theorem Sends.log_suffix {before after : Connection} {message : ServerMessage} {whole : Bool}
    (h : before.Sends message whole after) : before.outlet.log <:+ after.outlet.log := by
  cases h with
  | unwritable output => exact List.suffix_refl _
  | taken output hpayload hwrote => exact hwrote.suffix
  | broken output hpayload hwrote => exact hwrote.suffix

end Connection

namespace Exchange

/-- Sending succeeds exactly if the frame is taken whole, and the connection is open after it
exactly then. -/
theorem sendMessage_cases (connection : Connection) (message : ServerMessage)
    (hopen : connection.isOpen = true) :
    (∃ after, sendMessage message connection = .ok () after ∧
        connection.Sends message true after) ∨
      ∃ e after, sendMessage message connection = .error e after ∧
        connection.Sends message false after := by
  unfold sendMessage send
  rw [if_pos hopen]
  cases hbuild : Frame.build message.type message.size message.fields connection.output with
  | error e output =>
    refine .inr ⟨_, _, rfl, .unwritable output ?_⟩
    cases hpayload : message.payload? with
    | none => rfl
    | some payload =>
      obtain ⟨after, hbuilt⟩ := Frame.exists_build_eq_ok connection.output hpayload
        (ServerMessage.space_le hpayload)
      rw [hbuild] at hbuilt
      cases hbuilt
  | ok frame output =>
    obtain ⟨payload, hpayload, rfl⟩ := Frame.payload?_of_build_eq_ok hbuild
    cases hwrite : connection.outlet.write (FrameStream.frame payload) with
    | mk taken outlet =>
      have hwrote := Outlet.wrote_of_write hwrite
      simp only [hwrite]
      cases taken with
      | error fault =>
        exact .inr ⟨_, _, rfl, .broken output hpayload hwrote (by simp [Outlet.outcome])⟩
      | ok count =>
        by_cases hcount : count = (FrameStream.frame payload).length
        · subst hcount
          exact .inl ⟨_, if_pos rfl, .taken output hpayload hwrote⟩
        · exact .inr ⟨_, _, if_neg hcount,
            .broken output hpayload hwrote fun h => hcount (WriteOutcome.took.inj h)⟩

end Exchange

end MeshControl
