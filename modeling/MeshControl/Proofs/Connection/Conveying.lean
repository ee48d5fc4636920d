import MeshControl.Proofs.Connection.Written

/-!
Sending one letter after another. A letter is the body of a message, or nothing where a message has
no body. Letters are offered in order, each in one frame, up to the first that cannot be offered or
is not taken whole (`Outlet.Conveys`). A stream that accepts every write takes all letters that
there are, and what it has taken is then the frames of the letters, one behind the other.
-/

namespace MeshControl

namespace Outlet

/-- What a stream makes of letters, and whether all of them were taken whole. -/
inductive Conveys : Outlet → List (Option Bytes) → Bool → Outlet → Prop where
  | done (outlet : Outlet) : Conveys outlet [] true outlet
  | unwritable (outlet : Outlet) (later : List (Option Bytes)) :
    Conveys outlet (none :: later) false outlet
  | broken {before after : Outlet} {body : Bytes} {outcome : WriteOutcome}
    (later : List (Option Bytes)) (hwrote : before.Wrote (FrameStream.frame body) outcome after)
    (hpart : outcome ≠ .took (FrameStream.frame body).length) :
    Conveys before (some body :: later) false after
  | taken {before middle after : Outlet} {body : Bytes} {later : List (Option Bytes)}
    {whole : Bool}
    (hwrote : before.Wrote (FrameStream.frame body) (.took (FrameStream.frame body).length) middle)
    (hlater : Conveys middle later whole after) : Conveys before (some body :: later) whole after

variable {before middle after : Outlet} {first second letters : List (Option Bytes)} {whole : Bool}

theorem Conveys.append (hfirst : before.Conveys first true middle)
    (hsecond : middle.Conveys second whole after) :
    before.Conveys (first ++ second) whole after := by
  generalize hwhole : true = ended at hfirst
  induction hfirst with
  | done outlet => exact hsecond
  | unwritable | broken => cases hwhole
  | taken hwrote _ ih => exact .taken hwrote (ih hsecond hwhole)

theorem Conveys.append_of_false (h : before.Conveys first false after)
    (second : List (Option Bytes)) : before.Conveys (first ++ second) false after := by
  generalize hwhole : false = ended at h
  induction h with
  | done => cases hwhole
  | unwritable outlet later => exact .unwritable outlet _
  | broken later hwrote hpart => exact .broken _ hwrote hpart
  | taken hwrote _ ih => exact .taken hwrote (ih hwhole)

theorem Conveys.log_suffix (h : before.Conveys letters whole after) :
    before.log <:+ after.log := by
  induction h with
  | done | unwritable => exact List.suffix_refl _
  | broken _ hwrote => exact hwrote.suffix
  | taken hwrote _ ih => exact hwrote.suffix.trans ih

/-- The first letter is offered before the others, and they are not if it is not taken whole. -/
theorem Conveys.exists_wrote {body : Bytes}
    (h : before.Conveys (some body :: letters) whole after) :
    ∃ outcome middle, before.Wrote (FrameStream.frame body) outcome middle ∧
      middle.log <:+ after.log ∧
      (outcome ≠ .took (FrameStream.frame body).length → after = middle ∧ whole = false) := by
  cases h with
  | broken later hwrote => exact ⟨_, _, hwrote, List.suffix_refl _, fun _ => ⟨rfl, rfl⟩⟩
  | taken hwrote hlater => exact ⟨_, _, hwrote, hlater.log_suffix, fun hpart => absurd rfl hpart⟩

/-- Nothing is offered if the first letter is missing. -/
theorem Conveys.eq_of_none (h : before.Conveys (none :: letters) whole after) :
    after = before ∧ whole = false := by
  cases h
  exact ⟨rfl, rfl⟩

/-- A stream that takes every write that it does not interrupt. -/
def IsAccepting (outlet : Outlet) : Prop :=
  ∀ acceptance ∈ outlet.upcoming, acceptance = .whole ∨ acceptance = .interrupted

/-- Every write on record was taken whole or interrupted. -/
def AllWhole (outlet : Outlet) : Prop :=
  ∀ write ∈ outlet.log, write.outcome = .interrupted ∨ write.isWhole = true

theorem AllWhole.of_suffix (hsuffix : before.log <:+ after.log) (h : after.AllWhole) :
    before.AllWhole :=
  fun write hwrite => h write (hsuffix.subset hwrite)

theorem accepting_of_offer {bytes : Bytes} {upcoming : List Acceptance} {log : List Write}
    (haccepting : IsAccepting ⟨upcoming, log⟩) (hwhole : AllWhole ⟨upcoming, log⟩) :
    IsAccepting (offer bytes upcoming log).2 ∧ AllWhole (offer bytes upcoming log).2 := by
  induction upcoming generalizing log with
  | nil =>
    refine ⟨haccepting, fun write hwrite => ?_⟩
    obtain rfl | hold := List.mem_cons.mp hwrite
    · exact .inr (decide_eq_true rfl)
    · exact hwhole write hold
  | cons acceptance later ih =>
    have hlater : IsAccepting ⟨later, log⟩ := fun other hother =>
      haccepting other (List.mem_cons_of_mem _ hother)
    obtain rfl | rfl := haccepting acceptance (List.mem_cons_self ..)
    · refine ⟨hlater, fun write hwrite => ?_⟩
      obtain rfl | hold := List.mem_cons.mp hwrite
      · exact .inr (decide_eq_true rfl)
      · exact hwhole write hold
    · refine ih hlater fun write hwrite => ?_
      obtain rfl | hold := List.mem_cons.mp hwrite
      · exact .inl rfl
      · exact hwhole write hold

/-- A write keeps a stream accepting and its record without losses. -/
theorem accepting_of_write {bytes : Bytes} {taken : Except Fault Nat}
    (h : before.IsAccepting ∧ before.AllWhole) (hwrite : before.write bytes = (taken, after)) :
    after.IsAccepting ∧ after.AllWhole := by
  have hoffer : (offer bytes before.upcoming before.log).2 = after := congrArg Prod.snd hwrite
  rw [← hoffer]
  exact accepting_of_offer h.1 h.2

theorem Wrote.eq_took_of_allWhole {bytes : Bytes} {outcome : WriteOutcome}
    (h : before.Wrote bytes outcome after) (hwhole : after.AllWhole) :
    outcome = .took bytes.length := by
  obtain ⟨retries, hlog⟩ := h.log_eq
  obtain hinterrupted | hall := hwhole ⟨bytes, outcome⟩ (hlog ▸ List.mem_cons_self)
  · exact absurd hinterrupted h.settled
  · exact of_decide_eq_true hall

/-- The bytes that the stream has taken. -/
def bytes (outlet : Outlet) : Bytes := outlet.taken.flatten

theorem taken_eq_append {writes : List Write} (hlog : after.log = writes ++ before.log) :
    after.taken = before.taken ++ writes.reverse.filterMap Write.taken? := by
  rw [taken, taken, hlog, List.reverse_append, List.filterMap_append]

theorem taken_of_wrote {bytes : Bytes} {outcome : WriteOutcome}
    (h : before.Wrote bytes outcome after) :
    after.taken = before.taken ++ (Write.taken? ⟨bytes, outcome⟩).toList := by
  obtain ⟨retries, hlog⟩ := h.log_eq
  have htries : (List.replicate retries (Write.mk bytes .interrupted)).filterMap Write.taken? =
      [] := by
    rw [List.filterMap_eq_nil_iff]
    intro write hwrite
    rw [List.eq_of_mem_replicate hwrite]
    rfl
  rw [← List.cons_append] at hlog
  rw [taken_eq_append hlog, List.reverse_cons, List.reverse_replicate, List.filterMap_append,
    htries, List.nil_append]
  cases hwrite : Write.taken? ⟨bytes, outcome⟩ <;> simp [hwrite]

theorem bytes_of_wrote_whole {bytes : Bytes}
    (h : before.Wrote bytes (.took bytes.length) after) : after.bytes = before.bytes ++ bytes := by
  rw [Outlet.bytes, taken_of_wrote h, List.flatten_append]
  simp [Outlet.bytes, Write.taken?]

/-- What a stream that takes all writes makes of letters: it takes those before the first that is
missing. -/
theorem Conveys.of_allWhole (h : before.Conveys letters whole after) (hwhole : after.AllWhole) :
    ∃ bodies : List Bytes, after.bytes = before.bytes ++ FrameStream.joined bodies ∧
      (whole = true → letters = bodies.map some) ∧
      (whole = false → ∃ later, letters = bodies.map some ++ none :: later) := by
  induction h with
  | done outlet => exact ⟨[], (List.append_nil _).symm, fun _ => rfl, nofun⟩
  | unwritable outlet later => exact ⟨[], (List.append_nil _).symm, nofun, fun _ => ⟨later, rfl⟩⟩
  | broken later hwrote hpart => exact absurd (hwrote.eq_took_of_allWhole hwhole) hpart
  | @taken before middle after body later whole hwrote _ ih =>
    obtain ⟨bodies, hbytes, hall, hcut⟩ := ih hwhole
    refine ⟨body :: bodies, ?_, fun h => ?_, fun h => ?_⟩
    · rw [hbytes, bytes_of_wrote_whole hwrote, List.append_assoc]
      rfl
    · rw [hall h]
      rfl
    · obtain ⟨rest, hrest⟩ := hcut h
      exact ⟨rest, by rw [hrest]; rfl⟩

end Outlet

theorem Connection.Sends.conveys {before after : Connection} {message : ServerMessage}
    {whole : Bool} (h : before.Sends message whole after) :
    before.outlet.Conveys [message.payload?] whole after.outlet := by
  cases h with
  | unwritable output hnone =>
    rw [hnone]
    exact .unwritable _ []
  | taken output hpayload hwrote =>
    rw [hpayload]
    exact .taken hwrote (.done _)
  | broken output hpayload hwrote hpart =>
    rw [hpayload]
    exact .broken [] hwrote hpart

end MeshControl
