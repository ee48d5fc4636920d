import MeshControl.Proofs.Connection.Offering
import MeshControl.Proofs.Server.Convergence

/-!
Streams that accept every write. Such a stream goes on accepting, whatever is written to it: no step
of an exchange changes that (`Exchange.KeepsLossless`), so neither does handling all that arrives,
nor a push. Messages that fit into frames are then taken whole, and the connection stays open
(`Outlet.Conveys.of_lossless`).
-/

namespace MeshControl

/-- The stream accepts every write, and has done so from the start. -/
structure Outlet.IsLossless (outlet : Outlet) : Prop where
  accepting : outlet.IsAccepting
  allWhole : outlet.AllWhole

theorem Outlet.IsLossless.write {before after : Outlet} {bytes : Bytes} {taken : Except Fault Nat}
    (h : before.IsLossless) (hwrite : before.write bytes = (taken, after)) : after.IsLossless :=
  have hafter := accepting_of_write ⟨h.accepting, h.allWhole⟩ hwrite
  ⟨hafter.1, hafter.2⟩

/-- The bytes are the frames of messages, one behind the other. -/
def ServerMessage.Fill (messages : List ServerMessage) (bytes : Bytes) : Prop :=
  ∃ payloads : List Bytes, messages.map ServerMessage.payload? = payloads.map some ∧
    bytes = FrameStream.joined payloads

theorem ServerMessage.Fill.append {first second : List ServerMessage} {bytes more : Bytes}
    (hfirst : Fill first bytes) (hsecond : Fill second more) :
    Fill (first ++ second) (bytes ++ more) := by
  obtain ⟨payloads, hpayloads, rfl⟩ := hfirst
  obtain ⟨others, hothers, rfl⟩ := hsecond
  refine ⟨payloads ++ others, ?_, (FrameStream.joined_append ..).symm⟩
  rw [List.map_append, List.map_append, hpayloads, hothers]

/-- Messages that fit into frames are all taken whole. -/
theorem Outlet.Conveys.of_lossless {before after : Outlet} {messages : List ServerMessage}
    {whole : Bool} (h : before.Conveys (messages.map ServerMessage.payload?) whole after)
    (hlossless : after.IsLossless) (hfits : ∀ message ∈ messages, message.Fits) :
    whole = true ∧ ∃ bytes, ServerMessage.Fill messages bytes ∧
      after.bytes = before.bytes ++ bytes := by
  obtain ⟨bodies, hbytes, hall, hcut⟩ := h.of_allWhole hlossless.allWhole
  cases whole with
  | true => exact ⟨rfl, _, ⟨bodies, hall rfl, rfl⟩, hbytes⟩
  | false =>
    obtain ⟨later, hlater⟩ := hcut rfl
    have hnone : none ∈ messages.map ServerMessage.payload? := by simp [hlater]
    obtain ⟨message, hmessage, hpayload⟩ := List.mem_map.mp hnone
    exact absurd (hfits message hmessage) (message.payload?_eq_none_iff.mp hpayload)

namespace Exchange

/-- A step that leaves a stream lossless, whether it succeeds or not. -/
def KeepsLossless {α : Type} (step : Exchange α) : Prop :=
  ∀ connection : Connection, connection.outlet.IsLossless →
    (step.leaves connection).outlet.IsLossless

variable {α γ : Type}

theorem keepsLossless_pure (value : α) : KeepsLossless (pure value) := fun _ h => h

theorem KeepsLossless.bind {first : Exchange α} {next : α → Exchange γ}
    (hfirst : first.KeepsLossless) (hnext : ∀ value, (next value).KeepsLossless) :
    KeepsLossless (first >>= next) := by
  intro connection h
  have hmiddle := hfirst connection h
  unfold leaves at hmiddle ⊢
  cases hrun : first connection with
  | error e middle =>
    rw [hrun] at hmiddle
    rw [bind_of_eq_error hrun]
    exact hmiddle
  | ok value middle =>
    rw [hrun] at hmiddle
    rw [bind_of_eq_ok hrun]
    exact hnext value middle hmiddle

theorem keepsLossless_modify {change : Connection → Connection}
    (hsame : ∀ connection : Connection, (change connection).outlet = connection.outlet) :
    KeepsLossless (modify change) := by
  intro connection h
  change (change connection).outlet.IsLossless
  rwa [hsame]

theorem keepsLossless_read (decoder : Decoder α) : KeepsLossless (read decoder) := by
  intro connection h
  unfold leaves read
  cases connection.isOpen with
  | false => exact h
  | true => cases decoder (Reader.resume connection.message connection.position) <;> exact h

theorem keepsLossless_send (type : MessageType) (space : Nat) (fields : List Field) :
    KeepsLossless (send type space fields) := by
  intro connection h
  unfold leaves send
  cases connection.isOpen with
  | false => exact h
  | true =>
    simp only [if_true]
    cases Frame.build type space fields connection.output with
    | error e output => exact h
    | ok frame output =>
      cases hwrite : connection.outlet.write frame with
      | mk taken outlet =>
        have houtlet := h.write hwrite
        simp only [hwrite]
        cases taken with
        | error fault => exact houtlet
        | ok count =>
          by_cases hcount : count = frame.length
          · simp only [if_pos hcount]
            exact houtlet
          · simp only [if_neg hcount]
            exact houtlet

theorem keepsLossless_sendMessage (message : ServerMessage) : KeepsLossless (sendMessage message) :=
  keepsLossless_send _ _ _

theorem keepsLossless_respond (status : Status) : KeepsLossless (respond status) :=
  KeepsLossless.bind (fun _ h => h) fun _ => keepsLossless_sendMessage _

theorem keepsLossless_respondTunnelName (status : Status) (name : Option String) :
    KeepsLossless (respondTunnelName status name) :=
  KeepsLossless.bind (fun _ h => h) fun _ => keepsLossless_sendMessage _

theorem keepsLossless_receive : KeepsLossless receive := by
  refine .bind (keepsLossless_modify fun _ => rfl) fun _ => ?_
  refine .bind (keepsLossless_read _) fun code => ?_
  refine .bind (keepsLossless_modify fun _ => rfl) fun _ => ?_
  cases (MessageType.ofCode? code).bind Request.decode? with
  | none => exact keepsLossless_pure none
  | some decoder =>
    change KeepsLossless (some <$> read decoder)
    rw [map_eq_pure_bind]
    exact .bind (keepsLossless_read _) fun _ => keepsLossless_pure _

section

variable {β : Type} [Backend β]

theorem keepsLossless_answerTunnelName (backend : β) :
    KeepsLossless (answerTunnelName backend) := by
  unfold answerTunnelName
  cases Backend.tunnelName backend <;> exact keepsLossless_respondTunnelName _ _

theorem keepsLossless_answerSubscription (backend : β) (kind : EventKind) :
    KeepsLossless (answerSubscription backend kind) := by
  refine .bind (keepsLossless_modify fun _ => rfl) fun _ => ?_
  exact .bind (keepsLossless_respond _) fun _ => keepsLossless_sendMessage _

theorem keepsLossless_serve (backend : β) : KeepsLossless (serve backend) := by
  refine .bind keepsLossless_receive fun received => ?_
  rcases received with _ | request
  · exact .bind (keepsLossless_respond _) fun _ => keepsLossless_pure _
  · cases request with
    | subscribe kind =>
      exact .bind (keepsLossless_answerSubscription backend kind) fun _ => keepsLossless_pure _
    | getTunnelName =>
      exact .bind (keepsLossless_answerTunnelName backend) fun _ => keepsLossless_pure _
    | addService | removeService | addPrefix | removePrefix => exact keepsLossless_pure _

end

end Exchange

namespace Connection

variable {connection : Connection}

section

variable {β : Type} [Backend β]

theorem lossless_handle (backend : β) (h : connection.outlet.IsLossless) :
    (connection.handle backend).2.1.outlet.IsLossless := by
  have hserved := Exchange.keepsLossless_serve backend connection h
  unfold Exchange.leaves at hserved
  unfold handle
  cases hserve : Exchange.serve backend connection with
  | error e after =>
    rw [hserve] at hserved
    exact hserved
  | ok change after =>
    rw [hserve] at hserved
    cases change with
    | none => exact hserved
    | some change =>
      have hresponded := Exchange.keepsLossless_respond change.status after hserved
      unfold Exchange.leaves at hresponded
      cases hrespond : Exchange.respond change.status after <;>
        · simp only [hrespond] at hresponded ⊢
          exact hresponded

theorem lossless_handleAll (now : Nat) (backend : β) (h : connection.outlet.IsLossless) :
    (connection.handleAll now backend).2.1.outlet.IsLossless := by
  refine drain_keeps (motive := fun current _ => current.outlet.IsLossless) ?_ ?_ ?_
    connection (EventSet.empty, backend) h
  · intro current state outcome next hcurrent hfill
    obtain ⟨_, _, _, _, rfl⟩ := fill_frame hfill
    exact hcurrent
  · intro current state hcurrent
    exact hcurrent
  · intro current state inlet _ hcurrent
    exact lossless_handle state.2 hcurrent

end

/-- A push changes neither whom a connection belongs to nor what it is subscribed to. -/
theorem push_frame (connection : Connection) (event : Event) :
    (connection.push event).2.id = connection.id ∧
      (connection.push event).2.subscriptions = connection.subscriptions := by
  rcases push_cases connection event with ⟨-, hsame⟩ | ⟨whole, hsends⟩
  · simp only [hsame, and_self]
  · exact ⟨hsends.frame.1, hsends.frame.2.1⟩

theorem lossless_push (event : Event) (h : connection.outlet.IsLossless) :
    (connection.push event).2.outlet.IsLossless := by
  unfold push
  cases connection.receives event.kind with
  | false => exact h
  | true =>
    have hsent := Exchange.keepsLossless_sendMessage (.event event) connection h
    unfold Exchange.leaves at hsent
    rw [if_pos rfl]
    cases hsend : Exchange.sendEvent event connection <;>
      · rw [show Exchange.sendMessage (.event event) connection = _ from hsend] at hsent
        exact hsent

/-- An event that fits is pushed to a subscriber in one frame, and to nobody else. -/
theorem push_of_lossless {event : Event} (hlossless : connection.outlet.IsLossless)
    (hfits : connection.isSubscribed event.kind = true → (ServerMessage.event event).Fits) :
    ∃ output outlet, ∃ events : List Event, ∃ bytes,
      (connection.push event).2 = { connection with output, outlet } ∧ outlet.IsLossless ∧
      ServerMessage.Fill (events.map .event) bytes ∧
      outlet.bytes = connection.outlet.bytes ++ bytes := by
  have hpushed := lossless_push event hlossless
  cases hreceives : connection.receives event.kind with
  | false =>
    have hsame : (connection.push event).2 = connection := by simp [push, hreceives]
    exact ⟨_, _, [], [], hsame, hlossless, ⟨[], rfl, rfl⟩, (List.append_nil _).symm⟩
  | true =>
    obtain ⟨hopen, hsubscribed⟩ := receives_iff.mp hreceives
    rcases push_cases connection event with ⟨hsilent, -⟩ | ⟨whole, hsends⟩
    · rw [hreceives] at hsilent
      cases hsilent
    · obtain ⟨rfl, bytes, hfill, hbytes⟩ := hsends.conveys.of_lossless hpushed (by
        intro message hmessage
        rw [List.mem_singleton.mp hmessage]
        exact hfits hsubscribed)
      obtain ⟨output, outlet, hafter⟩ := hsends.eq hopen
      rw [hafter] at hpushed hbytes
      rw [← hopen] at hafter
      exact ⟨output, outlet, [event], bytes, hafter, hpushed, hfill, hbytes⟩

end Connection

end MeshControl
