import MeshControl.Proofs.Connection.Moving
import MeshControl.Proofs.Wire.Growing

/-!
What a peer can make of the memory of its connection. Room is made for what a phase lacks, and no
phase needs more than 65535 bytes; so a buffer that must grow has room for at most 65534, and comes
to twice that at most. Nothing ever gives room back, and the input never holds more bytes than the
phase needs. All of this is kept by each step that a connection can take, hence it holds before
every read, in every run of a callback and behind every drain (`Connection.input_confined`).
-/

namespace MeshControl

/-- The largest capacity that messages can make an input grow to: twice 65534, which is the largest
capacity that is too small for some message. -/
def inputLimit : Nat := 131068

/-- Making room keeps a buffer or lets one grow that is too small for what is needed. -/
theorem Encoder.capacity_of_reserve_eq_ok {additional : Nat} {before after : Buffer}
    (h : reserve additional before = .ok () after) :
    after.capacity = before.capacity ∨ before.capacity < before.cursor + additional ∧
      after.capacity = Buffer.grownCapacity before.capacity (before.cursor + additional) := by
  simp only [reserve] at h
  split at h
  · cases h
  · split at h
    · obtain rfl : before = after := (EStateM.Result.ok.inj h).2
      exact .inl rfl
    · split at h
      · cases h
      · rename_i hneeded _
        obtain rfl := (EStateM.Result.ok.inj h).2
        refine .inr ⟨Nat.not_le.mp hneeded, ?_⟩
        rw [Buffer.capacity_extend]
        apply Nat.max_eq_right
        unfold Buffer.grownCapacity
        omega

namespace Connection

variable {capacity : Nat} {connection next : Connection}

/-- An input that was opened with a capacity and is no larger than it was then or than messages can
make it, and that holds no more bytes than its phase needs. -/
structure Confined (capacity : Nat) (connection : Connection) : Prop where
  cursor_le_expected : connection.input.cursor ≤ connection.phase.expected
  cursor_le_capacity : connection.input.cursor ≤ connection.input.capacity
  le_capacity : capacity ≤ connection.input.capacity
  capacity_le : connection.input.capacity ≤ max capacity inputLimit

theorem Confined.isCollecting (h : connection.Confined capacity) : connection.IsCollecting :=
  h.cursor_le_expected

/-- What does not touch the phase leaves an input confined that keeps its capacity and stays within
the phase. -/
theorem Confined.of_eq (h : connection.Confined capacity)
    (hcapacity : next.input.capacity = connection.input.capacity)
    (hcursor : next.input.cursor ≤ next.phase.expected) : next.Confined capacity where
  cursor_le_expected := hcursor
  cursor_le_capacity := next.input.cursor_le
  le_capacity := hcapacity ▸ h.le_capacity
  capacity_le := hcapacity ▸ h.capacity_le

/-- Room for what the phase lacks is the only room that is ever made. -/
theorem Confined.reserve (h : connection.Confined capacity) {input : Buffer}
    (hreserve : Encoder.reserve connection.lacking connection.input = .ok () input) :
    Confined capacity { connection with input } ∧
      connection.input.capacity ≤ input.capacity := by
  have hexpected := connection.phase.expected_lt
  have hcollecting := h.cursor_le_expected
  obtain ⟨-, hcursor, -, hgrows⟩ := Encoder.of_reserve_eq_ok hreserve
  have hneeded : connection.input.cursor + connection.lacking = connection.phase.expected :=
    Nat.add_sub_cancel' hcollecting
  refine ⟨⟨hcursor ▸ hcollecting, input.cursor_le, Nat.le_trans h.le_capacity hgrows, ?_⟩, hgrows⟩
  have hcapacity := h.capacity_le
  obtain hsame | ⟨hsmall, hgrown⟩ := Encoder.capacity_of_reserve_eq_ok hreserve
  · rw [hsame]
    exact hcapacity
  · -- Only a buffer that is too small for a message grows, so twice its size is below the limit.
    rw [hgrown, hneeded]
    rw [hneeded] at hsmall
    refine Nat.le_trans ?_ (Nat.le_max_right _ _)
    simp only [Buffer.grownCapacity, inputLimit]
    omega

/-- What a read gives goes where room was made for it. -/
theorem Confined.afterRead (h : connection.Confined capacity) (now : Nat) {given : ReadOutcome}
    (hlength : given.bytes.length ≤ connection.lacking) :
    (connection.afterRead now connection.lacking given).2.Confined capacity ∧
      (connection.afterRead now connection.lacking given).2.input.capacity =
        connection.input.capacity := by
  have hcollecting := h.cursor_le_expected
  cases given with
  | data bytes =>
    have hcursor : (connection.input.fill bytes).cursor ≤
        connection.input.cursor + bytes.length := Nat.min_le_left ..
    have hfits : bytes.length ≤ connection.lacking := hlength
    refine ⟨h.of_eq (connection.input.capacity_fill bytes) ?_, connection.input.capacity_fill bytes⟩
    simp only [lacking] at hfits
    simp only [Connection.afterRead, received]
    omega
  | interrupted | wouldBlock | ended | failed => exact ⟨h.of_eq rfl hcollecting, rfl⟩

theorem Confined.fill (h : connection.Confined capacity) {now : Nat} {outcome : Fill}
    (hfill : connection.fill now = (outcome, next)) :
    next.Confined capacity ∧ connection.input.capacity ≤ next.input.capacity := by
  rcases fill_cases h.isCollecting hfill with
    ⟨-, -, rfl⟩ | ⟨-, input, given, inlet, hreserve, hread, hafter⟩
  · exact ⟨h, Nat.le_refl _⟩
  · obtain ⟨hroomy, hgrows⟩ := h.reserve hreserve
    obtain ⟨-, hcursor, -, -⟩ := Encoder.of_reserve_eq_ok hreserve
    have hready : Confined capacity { connection with input, inlet } :=
      hroomy.of_eq rfl hroomy.cursor_le_expected
    have hlacking : lacking { connection with input, inlet } = connection.lacking := by
      simp only [lacking, hcursor]
    have hlength := Inlet.length_read_le hread
    rw [← hlacking] at hlength hafter
    obtain ⟨hconfined, hsame⟩ := hready.afterRead now hlength
    rw [hafter] at hconfined hsame
    exact ⟨hconfined, hsame ▸ hgrows⟩

/-- Whatever is done to a connection, its input stays confined and gives no room back. -/
theorem Confined.step (h : connection.Confined capacity) (hstep : connection.Step next) :
    next.Confined capacity ∧ connection.input.capacity ≤ next.input.capacity := by
  cases hstep with
  | close | subscribe | note | touch | stream | restart =>
    exact ⟨h.of_eq rfl h.cursor_le_expected, Nat.le_refl _⟩
  | read decoder =>
    obtain ⟨_, _, hread, -⟩ := Exchange.leaves_read decoder connection
    rw [hread]
    exact ⟨h.of_eq rfl h.cursor_le_expected, Nat.le_refl _⟩
  | compose type space composition =>
    obtain ⟨_, _, _, hsent, -⟩ := Exchange.leaves_compose type space composition connection
    rw [hsent]
    exact ⟨h.of_eq rfl h.cursor_le_expected, Nat.le_refl _⟩
  | fill now => exact h.fill (Prod.eta _).symm
  | enterBody hphase => exact ⟨h.of_eq rfl (Nat.zero_le _), Nat.le_refl _⟩
  | leaveBody => exact ⟨h.of_eq rfl (Nat.zero_le _), Nat.le_refl _⟩

theorem Confined.moves (h : connection.Confined capacity) (hmoves : connection.Moves next) :
    next.Confined capacity ∧ connection.input.capacity ≤ next.input.capacity := by
  refine hmoves.keeps (motive := fun now => now.Confined capacity ∧
    connection.input.capacity ≤ now.input.capacity) ?_ ⟨h, Nat.le_refl _⟩
  rintro now later hstep ⟨hnow, hgrows⟩
  obtain ⟨hlater, hmore⟩ := hnow.step hstep
  exact ⟨hlater, Nat.le_trans hgrows hmore⟩

/-- No step makes an input hold more than its phase needs. -/
theorem IsCollecting.moves (h : connection.IsCollecting) (hmoves : connection.Moves next) :
    next.IsCollecting := by
  have hconfined : connection.Confined connection.input.capacity :=
    ⟨h, connection.input.cursor_le, Nat.le_refl _, Nat.le_max_left _ _⟩
  exact (hconfined.moves hmoves).1.isCollecting

/-- One pass of a drain that stays within what is confined: before its attempt, where it reads, and
behind the attempt, which is where the callback finds a whole message. -/
structure Pass.Confined (capacity : Nat) (pass : Pass) : Prop where
  before : pass.before.Confined capacity
  reading : ∀ input, Encoder.reserve pass.before.lacking pass.before.input = .ok () input →
    Connection.Confined capacity { pass.before with input }
  after : pass.after.Confined capacity
  grows : pass.before.input.capacity ≤ pass.after.input.capacity

/-- A peer cannot inflate the input of its connection. A connection is opened with some capacity.
Whatever is then done to it, and whatever arrives, its input holds no more bytes than the phase
needs and than it has room for, and its capacity is never below what it was before and never above
the larger of the first capacity and 131068. This holds between two steps, and in every drain, with
any callback that does what may be done: before and behind each attempt to complete a phase, at
each read, wherever the callback is run, and at the end. -/
theorem input_confined {capacity : Nat} {input : Buffer}
    (hinput : Buffer.withCapacity capacity = .ok input) (id since : Nat) (inlet : Inlet)
    (outlet : Outlet) {current : Connection}
    (hcurrent : Moves { id, inlet, outlet, input, lastActivity := since } current) :
    current.Confined capacity ∧
      (∀ later, current.Moves later → current.input.capacity ≤ later.input.capacity) ∧
      ∀ {σ : Type} (onMessage : Connection → σ → Connection × σ) (now : Nat) (state : σ),
        (∀ (other : Connection) (state : σ), other.Moves (onMessage other state).1) →
        ∃ passes,
          Passes onMessage now current state passes (drain onMessage now current state).1
            (drain onMessage now current state).2 ∧
          (∀ pass ∈ passes, pass.Confined capacity ∧
            current.input.capacity ≤ pass.before.input.capacity ∧
            pass.after.input.capacity ≤ (drain onMessage now current state).1.input.capacity) ∧
          (drain onMessage now current state).1.Confined capacity := by
  have hstart : Confined capacity { id, inlet, outlet, input, lastActivity := since } := by
    have hcapacity := Buffer.capacity_withCapacity hinput
    have hcursor : input.cursor = 0 := by
      rw [← Buffer.length_filled, Buffer.filled_withCapacity hinput, List.length_nil]
    refine ⟨?_, input.cursor_le, Nat.le_of_eq hcapacity.symm, ?_⟩
    · exact Nat.le_trans (Nat.le_of_eq hcursor) (Nat.zero_le _)
    · exact Nat.le_trans (Nat.le_of_eq hcapacity) (Nat.le_max_left _ _)
  obtain ⟨hconfined, -⟩ := hstart.moves hcurrent
  refine ⟨hconfined, fun later hlater => (hconfined.moves hlater).2, ?_⟩
  intro σ onMessage now state hcallback
  obtain ⟨passes, hpasses, -⟩ := exists_passes onMessage now current state
  have hcarries := hpasses.moves hcallback
  refine ⟨passes, hpasses, fun pass hpass => ?_, (hconfined.moves hcarries.moves).1⟩
  obtain ⟨hbefore, hfill, hrest⟩ := hcarries.moves_of_mem pass hpass
  obtain ⟨hready, hgrown⟩ := hconfined.moves hbefore
  obtain ⟨hfilled, hgrows⟩ := hready.moves hfill
  exact ⟨⟨hready, fun _ hreserve => (hready.reserve hreserve).1, hfilled, hgrows⟩, hgrown,
    (hfilled.moves hrest).2⟩

/-- A connection with room for three bytes, to which a message of five comes in two pieces. -/
def outgrown : Connection where
  id := 1
  inlet := ⟨[.data [0, 5, 7, 8], .data [9, 10, 11, 0]], false⟩
  input := Buffer.empty.extend 3

/-- A callback that subscribes the peer at each message. -/
def subscribing (connection : Connection) (count : Nat) : Connection × Nat :=
  (connection.subscribe .role, count + 1)

theorem input_confined_outgrown : Buffer.withCapacity 3 = .ok (Buffer.empty.extend 3) ∧
    Moves outgrown outgrown ∧ outgrown.Confined 3 ∧ outgrown.input.capacity = 3 ∧
      (∀ (other : Connection) (count : Nat), other.Moves (subscribing other count).1) ∧
      ∃ passes final, Passes subscribing 4 outgrown 0 passes final 1 ∧
        (∀ pass ∈ passes, pass.Confined 3) ∧ final.Confined 3 ∧ final.input.capacity = 6 := by
  have hinput : Buffer.withCapacity 3 = .ok (Buffer.empty.extend 3) := rfl
  have hcallback : ∀ (other : Connection) (count : Nat),
      other.Moves (subscribing other count).1 := fun _ _ => (Step.subscribe .role).moves
  have hcount : (drain subscribing 4 outgrown 0).2 = 1 := by decide +kernel
  have hcapacity : (drain subscribing 4 outgrown 0).1.input.capacity = 6 := by decide +kernel
  obtain ⟨hstart, -, hdrains⟩ := input_confined hinput 1 0 outgrown.inlet {} (.refl outgrown)
  obtain ⟨passes, hpasses, hconfined, hfinal⟩ := hdrains subscribing 4 0 hcallback
  rw [hcount] at hpasses
  exact ⟨hinput, .refl _, hstart, rfl, hcallback, passes, _, hpasses,
    fun pass hpass => (hconfined pass hpass).1, hfinal, hcapacity⟩

end Connection

end MeshControl
