import MeshControl.Proofs.Connection.Sending

/-!
What was written to a peer, read off the record of its stream. A write that offered the frame of a
message is decoded back to that message, so the record tells which replies were taken whole and
which event of a kind was the last to arrive. Sending a reply leaves the last events as they were,
and sending an event replaces at most the last one of its own kind.
-/

namespace MeshControl

namespace Write

/-- The message behind the length of what was offered, if it is one. -/
def message? (write : Write) : Option ServerMessage :=
  (ServerMessage.decode (write.offered.drop Frame.lengthSize)).toOption

/-- Whether all that was offered was taken. -/
def isWhole (write : Write) : Bool := write.outcome = .took write.offered.length

/-- Whether a reply was offered. -/
def isReply (write : Write) : Bool :=
  match write.message? with
  | some (.reply _) => true
  | _ => false

/-- The event of a kind that a write has brought to the peer, if it has brought one. -/
def event? (kind : EventKind) (write : Write) : Option Event :=
  match write.message? with
  | some (.event event) => if event.kind = kind ∧ write.isWhole = true then some event else none
  | _ => none

theorem message?_frame {message : ServerMessage} {payload : Bytes} (outcome : WriteOutcome)
    (hpayload : message.payload? = some payload) :
    message? ⟨FrameStream.frame payload, outcome⟩ = some message.normal := by
  have hdrop : (FrameStream.frame payload).drop Frame.lengthSize = payload :=
    List.drop_left' (BigEndian.length_digits ..)
  simp only [message?, hdrop, ServerMessage.decode_payload hpayload, Except.toOption]

theorem event?_of_not_isWhole {write : Write} (kind : EventKind) (hpart : write.isWhole = false) :
    write.event? kind = none := by
  unfold event?
  split
  · simp [hpart]
  · rfl

theorem event?_reply {reply : Reply} {payload : Bytes} (kind : EventKind) (outcome : WriteOutcome)
    (hpayload : (ServerMessage.reply reply).payload? = some payload) :
    event? kind ⟨FrameStream.frame payload, outcome⟩ = none := by
  unfold event?
  rw [message?_frame outcome hpayload]
  rfl

theorem event?_event {event : Event} {payload : Bytes} (kind : EventKind) (outcome : WriteOutcome)
    (hpayload : (ServerMessage.event event).payload? = some payload) :
    event? kind ⟨FrameStream.frame payload, outcome⟩ =
      if event.kind = kind ∧ outcome = .took (FrameStream.frame payload).length then some event
      else none := by
  unfold event?
  rw [message?_frame outcome hpayload]
  simp only [ServerMessage.normal, isWhole, decide_eq_true_eq]

theorem isReply_reply {reply : Reply} {payload : Bytes} (outcome : WriteOutcome)
    (hpayload : (ServerMessage.reply reply).payload? = some payload) :
    isReply ⟨FrameStream.frame payload, outcome⟩ = true := by
  unfold isReply
  rw [message?_frame outcome hpayload]
  rfl

end Write

namespace Outlet

/-- The last event of a kind that has come to the peer. -/
def lastEvent? (outlet : Outlet) (kind : EventKind) : Option Event :=
  outlet.log.findSome? (·.event? kind)

/-- Every reply that was offered was taken whole, be it after interrupted tries. -/
def RepliesWhole (outlet : Outlet) : Prop :=
  ∀ write ∈ outlet.log, write.isReply = true →
    write.outcome = .interrupted ∨ write.isWhole = true

instance (outlet : Outlet) : Decidable outlet.RepliesWhole :=
  inferInstanceAs (Decidable (∀ write ∈ outlet.log, write.isReply = true →
    write.outcome = .interrupted ∨ write.isWhole = true))

theorem RepliesWhole.of_suffix {before after : Outlet} (hsuffix : before.log <:+ after.log)
    (h : after.RepliesWhole) : before.RepliesWhole :=
  fun write hwrite => h write (hsuffix.subset hwrite)

theorem Wrote.lastEvent?_eq {before after : Outlet} {bytes : Bytes} {outcome : WriteOutcome}
    (h : before.Wrote bytes outcome after) (kind : EventKind) :
    after.lastEvent? kind =
      (Write.event? kind ⟨bytes, outcome⟩).or (before.lastEvent? kind) := by
  obtain ⟨retries, hlog⟩ := h.log_eq
  have htries : (List.replicate retries (Write.mk bytes .interrupted)).findSome?
      (·.event? kind) = none := by
    rw [List.findSome?_eq_none_iff]
    intro write hwrite
    rw [List.eq_of_mem_replicate hwrite]
    exact Write.event?_of_not_isWhole kind (by simp [Write.isWhole])
  simp only [lastEvent?, hlog, List.findSome?_cons, List.findSome?_append, htries, Option.none_or]
  cases Write.event? kind ⟨bytes, outcome⟩ <;> rfl

end Outlet

namespace Connection.Sends

variable {before after : Connection} {whole : Bool}

theorem lastEvent?_of_reply {reply : Reply} (h : before.Sends (.reply reply) whole after)
    (kind : EventKind) : after.outlet.lastEvent? kind = before.outlet.lastEvent? kind := by
  cases h with
  | unwritable output => rfl
  | taken output hpayload hwrote =>
    exact (hwrote.lastEvent?_eq kind).trans (by rw [Write.event?_reply kind _ hpayload]; rfl)
  | broken output hpayload hwrote =>
    exact (hwrote.lastEvent?_eq kind).trans (by rw [Write.event?_reply kind _ hpayload]; rfl)

theorem lastEvent?_of_event {event : Event} (h : before.Sends (.event event) true after) :
    after.outlet.lastEvent? event.kind = some event := by
  cases h with
  | taken output hpayload hwrote =>
    refine (hwrote.lastEvent?_eq event.kind).trans ?_
    rw [Write.event?_event _ _ hpayload, if_pos ⟨rfl, rfl⟩]
    rfl

theorem lastEvent?_of_other {event : Event} {kind : EventKind}
    (h : before.Sends (.event event) whole after) (hkind : event.kind ≠ kind) :
    after.outlet.lastEvent? kind = before.outlet.lastEvent? kind := by
  cases h with
  | unwritable output => rfl
  | taken output hpayload hwrote =>
    refine (hwrote.lastEvent?_eq kind).trans ?_
    rw [Write.event?_event _ _ hpayload, if_neg fun h => hkind h.1]
    rfl
  | broken output hpayload hwrote =>
    refine (hwrote.lastEvent?_eq kind).trans ?_
    rw [Write.event?_event _ _ hpayload, if_neg fun h => hkind h.1]
    rfl

/-- A reply with a body is whole where every reply is. -/
theorem whole_of_repliesWhole {reply : Reply} (h : before.Sends (.reply reply) whole after)
    (hbody : (ServerMessage.reply reply).payload? ≠ none) (hwhole : after.outlet.RepliesWhole) :
    whole = true := by
  cases h with
  | unwritable output hnone => exact absurd hnone hbody
  | taken output => rfl
  | broken output hpayload hwrote hpart =>
    obtain ⟨retries, hlog⟩ := hwrote.log_eq
    rcases hwhole _ (hlog ▸ List.mem_cons_self) (Write.isReply_reply _ hpayload) with h | h
    · exact absurd h hwrote.settled
    · exact absurd (of_decide_eq_true h) hpart

end Connection.Sends

end MeshControl
