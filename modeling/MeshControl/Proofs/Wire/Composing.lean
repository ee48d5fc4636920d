import MeshControl.Proofs.Wire.Building

/-!
Messages composed field by field. Whoever sends a message says how its fields are put, and may look
at what each call came to and go on as it likes, also after a failure (`Composition`). Fields put in
order up to the first failure are the simplest composition. Puts only add to what the buffer holds,
so whatever is composed, a frame that is finished is a body behind its length
(`exists_body_of_compose_eq_ok`).
-/

namespace MeshControl

/-- A program of put calls. It ends with success or a failure, and what it does next may depend on
what the last call came to. -/
inductive Composition where
  | stop (result : Except WireError Unit)
  | put (field : Field) (next : Except WireError Unit → Composition)

namespace Composition

/-- Puts the fields, going on as the program says. -/
def run : Composition → Encoder Unit
  | stop (.ok _), buffer => .ok () buffer
  | stop (.error e), buffer => .error e buffer
  | put field next, buffer =>
    match field.put buffer with
    | .ok _ buffer => (next (.ok ())).run buffer
    | .error e buffer => (next (.error e)).run buffer

/-- Puts fields in order, up to the first that cannot be written. -/
def ofFields : List Field → Composition
  | [] => stop (.ok ())
  | field :: fields =>
    put field fun
      | .ok _ => ofFields fields
      | .error e => stop (.error e)

theorem run_ofFields (fields : List Field) : (ofFields fields).run = Field.putAll fields := by
  funext before
  induction fields generalizing before with
  | nil => rfl
  | cons field fields ih =>
    change _ = (field.put >>= fun _ => Field.putAll fields) before
    cases hput : field.put before with
    | ok value middle =>
      rw [bind_of_eq_ok hput, ← ih middle]
      simp only [ofFields, run, hput]
    | error e middle =>
      rw [bind_of_eq_error hput]
      simp only [ofFields, run, hput]

end Composition

namespace Encoder

/-- The buffer that a step leaves, whether it succeeds or not. -/
def leaves {α : Type} (step : Encoder α) (before : Buffer) : Buffer :=
  match step before with
  | .ok _ after => after
  | .error _ after => after

theorem filled_prefix_append (bytes : Bytes) (before : Buffer) :
    before.filled <+: (leaves (append bytes) before).filled := by
  unfold leaves
  cases happend : append bytes before with
  | ok value after =>
    rw [filled_of_append_eq_ok happend]
    exact List.prefix_append ..
  | error e after =>
    unfold append at happend
    split at happend
    · cases happend
    · rename_i hreserve
      obtain ⟨-, rfl⟩ := EStateM.Result.error.inj happend
      obtain rfl := of_reserve_eq_error hreserve
      exact List.prefix_refl _

theorem filled_prefix_forM_append (pieces : List Bytes) (before : Buffer) :
    before.filled <+: (leaves (pieces.forM append) before).filled := by
  induction pieces generalizing before with
  | nil => exact List.prefix_refl _
  | cons piece pieces ih =>
    have hfirst := filled_prefix_append piece before
    change _ <+: (leaves (append piece >>= fun _ => pieces.forM append) before).filled
    unfold leaves at hfirst ⊢
    cases hpiece : append piece before with
    | ok value middle =>
      rw [hpiece] at hfirst
      rw [bind_of_eq_ok hpiece]
      exact hfirst.trans (ih middle)
    | error e middle =>
      rw [hpiece] at hfirst
      rw [bind_of_eq_error hpiece]
      exact hfirst

end Encoder

theorem Field.filled_prefix_put (field : Field) (before : Buffer) :
    before.filled <+: (Encoder.leaves field.put before).filled := by
  cases hpieces : field.pieces with
  | ok pieces =>
    rw [put_of_pieces hpieces]
    exact Encoder.filled_prefix_forM_append pieces before
  | error e =>
    have hput : field.put before = .error e before := by
      simp only [put, hpieces]
      rfl
    unfold Encoder.leaves
    simp only [hput, List.prefix_refl]

/-- A composition only adds to what the buffer holds. -/
theorem Composition.filled_prefix_run (composition : Composition) (before : Buffer) :
    before.filled <+: (Encoder.leaves composition.run before).filled := by
  induction composition generalizing before with
  | stop result => cases result <;> exact List.prefix_refl _
  | put field next ih =>
    have hfirst := field.filled_prefix_put before
    unfold Encoder.leaves at hfirst ih ⊢
    simp only [run]
    cases hput : field.put before with
    | ok value middle =>
      rw [hput] at hfirst
      exact hfirst.trans (ih (.ok ()) middle)
    | error e middle =>
      rw [hput] at hfirst
      exact hfirst.trans (ih (.error e) middle)

namespace Frame

/-- Builds a frame of a message that is composed. -/
def compose (type : MessageType) (space : Nat) (composition : Composition) : Encoder Bytes := do
  start type space
  composition.run
  finish

/-- Building a message from fields is composing it. -/
theorem build_eq_compose (type : MessageType) (space : Nat) (fields : List Field) :
    build type space fields = compose type space (.ofFields fields) := by
  rw [compose, Composition.run_ofFields]
  rfl

/-- Whatever is composed, a frame that is finished is a body behind its length. -/
theorem exists_body_of_compose_eq_ok {type : MessageType} {space : Nat} {composition : Composition}
    {before after : Buffer} {frame : Bytes}
    (h : compose type space composition before = .ok frame after) :
    ∃ body, body.length ≤ maxPayload ∧ frame = FrameStream.frame body := by
  obtain ⟨_, started, hstart, h⟩ := bind_eq_ok_iff.mp h
  obtain ⟨_, filled, hrun, hfinish⟩ := bind_eq_ok_iff.mp h
  obtain ⟨added, hadded⟩ := composition.filled_prefix_run started
  simp only [Encoder.leaves, hrun] at hadded
  rw [filled_of_start_eq_ok hstart, List.append_assoc] at hadded
  have hlength := length_le_of_finish_eq_ok hfinish
  rw [← Buffer.length_filled, ← hadded, List.length_append, lengthSize] at hlength
  obtain ⟨patched, hframe⟩ := finish_eq hadded.symm (by simpa using hlength)
  rw [hframe] at hfinish
  exact ⟨_, by simpa using hlength, (EStateM.Result.ok.inj hfinish).1.symm⟩

end Frame

end MeshControl
