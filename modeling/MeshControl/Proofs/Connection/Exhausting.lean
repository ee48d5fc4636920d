import MeshControl.Proofs.Connection.Draining

/-!
A drain leaves nothing behind. It makes finitely many passes, each of which completes a phase
without a read or reads for exactly the bytes that the phase lacks, at least one; and it leaves the
connection open only behind a read that found nothing (`Connection.drain_exhausts`). All of this
rests on one invariant: where a drain begins and ends, a phase lacks bytes.
-/

namespace MeshControl

namespace Connection

/-- The read that an attempt to complete the phase makes, if it makes one: the number of bytes of
the slice that is read into, and what the read gives. -/
def reading? (connection : Connection) : Option (Nat × ReadOutcome) :=
  if connection.lacking = 0 then none
  else
    match Encoder.reserve connection.lacking connection.input with
    | .error _ _ => none
    | .ok _ input =>
      let count := input.slice connection.lacking
      some (count, (connection.inlet.read count).1)

/-- One pass through the loop of a drain: the connection before and behind the attempt to complete
its phase, and what the attempt came to. -/
structure Pass where
  before : Connection
  outcome : Fill
  after : Connection

/-- The passes of a drain, up to the one that stops or to the closing of the connection. -/
inductive Passes {σ : Type} (onMessage : Connection → σ → Connection × σ) (now : Nat) :
    Connection → σ → List Pass → Connection → σ → Prop where
  | closed {connection : Connection} {state : σ} (hclosed : ¬ connection.isOpen = true) :
    Passes onMessage now connection state [] connection state
  | stop {connection next : Connection} {state : σ} (hopen : connection.isOpen = true)
    (hfill : connection.fill now = (.stop, next)) :
    Passes onMessage now connection state [⟨connection, .stop, next⟩] next state
  | again {connection next final : Connection} {state left : σ} {passes : List Pass}
    (hopen : connection.isOpen = true) (hfill : connection.fill now = (.again, next))
    (hrest : Passes onMessage now next state passes final left) :
    Passes onMessage now connection state (⟨connection, .again, next⟩ :: passes) final left
  | header {connection next final : Connection} {state left : σ} {passes : List Pass}
    (hopen : connection.isOpen = true) (hfill : connection.fill now = (.complete, next))
    (hphase : next.phase = .header)
    (hrest : Passes onMessage now next.enterBody state passes final left) :
    Passes onMessage now connection state (⟨connection, .complete, next⟩ :: passes) final left
  | body {connection next handled final : Connection} {state middle left : σ} {length : UInt16}
    {passes : List Pass} (hopen : connection.isOpen = true)
    (hfill : connection.fill now = (.complete, next)) (hphase : next.phase = .body length)
    (hmessage : onMessage { next with position := 0 } state = (handled, middle))
    (hrest : Passes onMessage now (handled.leaveBody next.inlet) middle passes final left) :
    Passes onMessage now connection state (⟨connection, .complete, next⟩ :: passes) final left

/-- What holds of every pass. It reads unless its phase is complete already, the read asks for what
the phase lacks, and the phase is complete behind it exactly if nothing is lacking any more. -/
structure Pass.Sound (now : Nat) (pass : Pass) : Prop where
  is_fill : pass.before.fill now = (pass.outcome, pass.after)
  collecting : pass.before.IsCollecting
  reading_none : pass.before.reading? = none ↔
    pass.before.input.cursor = pass.before.phase.expected
  reading_some : ∀ count given, pass.before.reading? = some (count, given) →
    count = pass.before.phase.expected - pass.before.input.cursor ∧ 1 ≤ count ∧
      given ≠ .data [] ∧ ∃ input inlet, pass.before.inlet.read count = (given, inlet) ∧
        { pass.before with input, inlet }.afterRead now count given = (pass.outcome, pass.after)
  complete_iff : pass.outcome = .complete ↔ pass.after.input.cursor = pass.after.phase.expected
  prefix_there : pass.outcome = .complete → pass.after.phase = .header →
    pass.after.input.filled.length = 2

end Connection

/-- A read that asks for bytes never gives none as data. -/
theorem Inlet.read_ne_data_nil (inlet : Inlet) {count : Nat} (hcount : 0 < count) :
    (inlet.read count).1 ≠ .data [] := by
  unfold read
  split
  · split <;> simp
  · simp
  · rename_i bytes later hne _
    simp only [ne_eq, ReadOutcome.data.injEq, List.take_eq_nil_iff, not_or]
    exact ⟨by omega, hne⟩
  all_goals simp

namespace Connection

variable {connection next : Connection} {now : Nat} {outcome : Fill}

theorem reading?_of_lacking_eq_zero (hlacking : connection.lacking = 0) :
    connection.reading? = none := by
  rw [reading?, if_pos hlacking]

/-- The slice that is read into is as long as what the phase lacks. -/
theorem reading?_of_reserve {input : Buffer} (hlacking : 0 < connection.lacking)
    (hreserve : Encoder.reserve connection.lacking connection.input = .ok () input) :
    connection.reading? =
      some (connection.lacking, (connection.inlet.read connection.lacking).1) := by
  obtain ⟨-, -, hroom, -⟩ := Encoder.of_reserve_eq_ok hreserve
  have hslice : input.slice connection.lacking = connection.lacking := by
    simp only [Buffer.room] at hroom
    simp only [Buffer.slice]
    omega
  rw [reading?, if_neg (Nat.ne_of_gt hlacking), hreserve]
  simp only [hslice]

theorem reading?_eq_none_iff (hcollecting : connection.IsCollecting) :
    connection.reading? = none ↔ connection.input.cursor = connection.phase.expected := by
  have hcursor : connection.input.cursor ≤ connection.phase.expected := hcollecting
  obtain ⟨input, hreserve⟩ := exists_reserve_lacking hcollecting
  rcases Nat.eq_zero_or_pos connection.lacking with hlacking | hlacking
  · rw [reading?_of_lacking_eq_zero hlacking]
    simp only [lacking] at hlacking
    simp only [true_iff]
    omega
  · rw [reading?_of_reserve hlacking hreserve]
    simp only [lacking] at hlacking
    simp only [reduceCtorEq, false_iff]
    omega

/-- An attempt completes the phase exactly if nothing is lacking behind it. -/
theorem complete_iff_of_fill (hcollecting : connection.IsCollecting)
    (hfill : connection.fill now = (outcome, next)) :
    outcome = .complete ↔ next.input.cursor = next.phase.expected := by
  obtain ⟨-, -, hcomplete, -⟩ := fill_bytes hcollecting hfill
  refine ⟨hcomplete, fun hall => ?_⟩
  rcases fill_cases hcollecting hfill with
    ⟨-, rfl, -⟩ | ⟨hlacking, input, given, inlet, hreserve, hread, hafter⟩
  · rfl
  · obtain ⟨-, hcursor, -, -⟩ := Encoder.of_reserve_eq_ok hreserve
    simp only [lacking] at hlacking
    cases given with
    | data bytes =>
      simp only [afterRead, received, Prod.mk.injEq] at hafter
      obtain ⟨rfl, rfl⟩ := hafter
      have hend : (input.fill bytes).cursor ≤ input.cursor + bytes.length := Nat.min_le_left ..
      simp only at hall
      refine if_neg fun hshort => ?_
      simp only [lacking] at hshort
      omega
    | interrupted | wouldBlock | ended | failed =>
      simp only [afterRead, close, Prod.mk.injEq] at hafter
      obtain ⟨-, rfl⟩ := hafter
      simp only at hall
      omega

/-- Each attempt of a connection that has no more bytes than its phase needs is a sound pass. -/
theorem sound_of_fill (hcollecting : connection.IsCollecting)
    (hfill : connection.fill now = (outcome, next)) :
    Pass.Sound now ⟨connection, outcome, next⟩ where
  is_fill := hfill
  collecting := hcollecting
  reading_none := reading?_eq_none_iff hcollecting
  reading_some := by
    intro count given hreading
    rcases fill_cases hcollecting hfill with
      ⟨hlacking, -, -⟩ | ⟨hlacking, input, outcome, inlet, hreserve, hread, hafter⟩
    · rw [reading?_of_lacking_eq_zero hlacking] at hreading
      cases hreading
    · rw [reading?_of_reserve hlacking hreserve, hread] at hreading
      obtain ⟨rfl, rfl⟩ := Prod.mk.inj (Option.some.inj hreading)
      have hgiven := connection.inlet.read_ne_data_nil hlacking
      rw [hread] at hgiven
      exact ⟨rfl, hlacking, hgiven, input, inlet, hread, hafter⟩
  complete_iff := complete_iff_of_fill hcollecting hfill
  prefix_there := by
    intro hcomplete hphase
    have hcursor := (complete_iff_of_fill hcollecting hfill).mp hcomplete
    rw [next.input.length_filled, hcursor, hphase]
    rfl

theorem isCollecting_enterBody : connection.enterBody.IsCollecting := Nat.zero_le _

theorem isCollecting_leaveBody (inlet : Inlet) : (connection.leaveBody inlet).IsCollecting :=
  Nat.zero_le _

/-- Where a drain begins and ends, bytes are lacking. -/
def Lacks (connection : Connection) : Prop :=
  connection.input.cursor < connection.phase.expected

theorem Lacks.isCollecting (h : connection.Lacks) : connection.IsCollecting := Nat.le_of_lt h

/-- An attempt that stops leaves bytes lacking. -/
theorem lacks_of_stop (hcollecting : connection.IsCollecting)
    (hfill : connection.fill now = (.stop, next)) : next.Lacks := by
  obtain ⟨-, hnext, -⟩ := fill_bytes hcollecting hfill
  refine Nat.lt_of_le_of_ne hnext fun hall => ?_
  cases (complete_iff_of_fill hcollecting hfill).mpr hall

/-- An attempt that stops leaves the connection open only if its read found nothing. -/
theorem reading?_of_stop (hcollecting : connection.IsCollecting)
    (hfill : connection.fill now = (.stop, next)) (hopen : next.isOpen = true) :
    ∃ count, connection.reading? = some (count, .wouldBlock) ∧
      connection.inlet.read count = (.wouldBlock, next.inlet) := by
  rcases fill_cases hcollecting hfill with
    ⟨-, hstop, -⟩ | ⟨hlacking, input, given, inlet, hreserve, hread, hafter⟩
  · cases hstop
  · have hreading := reading?_of_reserve hlacking hreserve
    rw [hread] at hreading
    cases given with
    | wouldBlock =>
      simp only [afterRead, Prod.mk.injEq] at hafter
      obtain ⟨-, rfl⟩ := hafter
      exact ⟨_, hreading, hread⟩
    | data bytes =>
      simp only [afterRead, Prod.mk.injEq] at hafter
      obtain ⟨hstop, -⟩ := hafter
      split at hstop <;> cases hstop
    | interrupted =>
      simp only [afterRead, Prod.mk.injEq] at hafter
      cases hafter.1
    | ended | failed =>
      simp only [afterRead, Prod.mk.injEq] at hafter
      obtain ⟨-, rfl⟩ := hafter
      cases hopen

section

variable {σ : Type} {onMessage : Connection → σ → Connection × σ} {final : Connection}
  {state left : σ} {passes : List Pass}

/-- A drain comes to its end in as many passes as its effort and one more. -/
theorem exists_passes (onMessage : Connection → σ → Connection × σ) (now : Nat)
    (connection : Connection) (state : σ) :
    ∃ passes, Passes onMessage now connection state passes
        (drain onMessage now connection state).1 (drain onMessage now connection state).2 ∧
      passes.length ≤ connection.effort + 1 := by
  induction connection, state using drain.induct onMessage now with
  | case1 connection state hopen next hfill =>
    rw [drain_stop hopen hfill]
    exact ⟨_, .stop hopen hfill, Nat.le_add_left ..⟩
  | case2 connection state hopen next hfill hless ih =>
    obtain ⟨passes, hpasses, hlength⟩ := ih
    rw [drain_again hopen hfill]
    exact ⟨_, .again hopen hfill hpasses, Nat.succ_le_succ (Nat.le_trans hlength hless)⟩
  | case3 connection state hopen next hfill hphase hless ih =>
    obtain ⟨passes, hpasses, hlength⟩ := ih
    rw [drain_header hopen hfill hphase]
    exact ⟨_, .header hopen hfill hphase hpasses, Nat.succ_le_succ (Nat.le_trans hlength hless)⟩
  | case4 connection state hopen next hfill length hphase handled middle hmessage hless ih =>
    obtain ⟨passes, hpasses, hlength⟩ := ih
    rw [drain_body hopen hfill hphase hmessage]
    exact ⟨_, .body hopen hfill hphase hmessage hpasses,
      Nat.succ_le_succ (Nat.le_trans hlength hless)⟩
  | case5 connection state hclosed =>
    rw [drain_closed hclosed]
    exact ⟨[], .closed hclosed, Nat.zero_le _⟩

theorem Passes.sound (h : Passes onMessage now connection state passes final left)
    (hcollecting : connection.IsCollecting) : ∀ pass ∈ passes, pass.Sound now := by
  induction h with
  | closed => simp
  | stop hopen hfill =>
    intro pass hpass
    rw [List.mem_singleton.mp hpass]
    exact sound_of_fill hcollecting hfill
  | again hopen hfill _ ih =>
    obtain ⟨-, hnext, -⟩ := fill_bytes hcollecting hfill
    exact List.forall_mem_cons.mpr ⟨sound_of_fill hcollecting hfill, ih hnext⟩
  | header hopen hfill hphase _ ih =>
    exact List.forall_mem_cons.mpr ⟨sound_of_fill hcollecting hfill, ih isCollecting_enterBody⟩
  | body hopen hfill hphase hmessage _ ih =>
    exact List.forall_mem_cons.mpr ⟨sound_of_fill hcollecting hfill, ih (isCollecting_leaveBody _)⟩

/-- Passes that end with the connection open end with a read that found nothing. -/
theorem Passes.last_of_open (h : Passes onMessage now connection state passes final left)
    (hcollecting : connection.IsCollecting) (hopen : final.isOpen = true) :
    ∃ last count, passes.getLast? = some last ∧
      last.before.reading? = some (count, .wouldBlock) ∧
      last.before.inlet.read count = (.wouldBlock, final.inlet) := by
  induction h with
  | closed hclosed => exact absurd hopen hclosed
  | stop _ hfill =>
    obtain ⟨count, hreading⟩ := reading?_of_stop hcollecting hfill hopen
    exact ⟨_, count, rfl, hreading⟩
  | again _ hfill _ ih =>
    obtain ⟨-, hnext, -⟩ := fill_bytes hcollecting hfill
    obtain ⟨last, count, hlast, hreading⟩ := ih hnext hopen
    exact ⟨last, count, by rw [List.getLast?_cons, hlast, Option.getD_some], hreading⟩
  | header _ _ _ _ ih =>
    obtain ⟨last, count, hlast, hreading⟩ := ih isCollecting_enterBody hopen
    exact ⟨last, count, by rw [List.getLast?_cons, hlast, Option.getD_some], hreading⟩
  | body _ _ _ _ _ ih =>
    obtain ⟨last, count, hlast, hreading⟩ := ih (isCollecting_leaveBody _) hopen
    exact ⟨last, count, by rw [List.getLast?_cons, hlast, Option.getD_some], hreading⟩

/-- Where passes end bytes are lacking, however the callback left its connection. -/
theorem Passes.lacks (h : Passes onMessage now connection state passes final left)
    (hcollecting : connection.IsCollecting)
    (hclosed : ¬ connection.isOpen = true → connection.Lacks) :
    final.Lacks := by
  -- Behind an attempt that goes on the connection is open, and behind a callback that closes it the
  -- next length is awaited. So the state in which the passes begin matters only if there are none.
  induction h with
  | closed hshut => exact hclosed hshut
  | stop _ hfill => exact lacks_of_stop hcollecting hfill
  | again hopen hfill _ ih =>
    obtain ⟨-, hnext, -⟩ := fill_bytes hcollecting hfill
    obtain ⟨-, hstill⟩ := sameStanding_fill hfill
    exact ih hnext fun hshut => absurd ((hstill nofun).trans hopen) hshut
  | header hopen hfill _ _ ih =>
    obtain ⟨-, hstill⟩ := sameStanding_fill hfill
    exact ih isCollecting_enterBody fun hshut => absurd ((hstill nofun).trans hopen) hshut
  | body _ _ _ _ _ ih => exact ih (isCollecting_leaveBody _) fun _ => Nat.zero_lt_two

end

/-- The states of a connection between two drains: it is opened with nothing collected, drained with
any callbacks, and otherwise changed in any way that leaves its input and its phase alone and does
not open it again. -/
inductive Reachable : Connection → Prop where
  | opened {connection : Connection} (capacity : Nat) (hphase : connection.phase = .header)
    (hinput : Buffer.withCapacity capacity = .ok connection.input) : Reachable connection
  | drained {connection : Connection} {σ : Type} (onMessage : Connection → σ → Connection × σ)
    (now : Nat) (state : σ) (h : Reachable connection) :
    Reachable (drain onMessage now connection state).1
  | changed {connection next : Connection} (hphase : next.phase = connection.phase)
    (hinput : next.input = connection.input)
    (hopen : next.isOpen = true → connection.isOpen = true) (h : Reachable connection) :
    Reachable next

theorem Reachable.lacks (h : Reachable connection) : connection.Lacks := by
  induction h with
  | @opened connection capacity hphase hinput =>
    have hcursor := Buffer.length_filled connection.input
    rw [Buffer.filled_withCapacity hinput] at hcursor
    rw [Lacks, hphase, ← hcursor]
    exact Nat.zero_lt_two
  | drained onMessage now state h ih =>
    obtain ⟨passes, hpasses, -⟩ := exists_passes onMessage now _ state
    exact hpasses.lacks ih.isCollecting fun _ => ih
  | changed hphase hinput _ h ih =>
    rw [Lacks, hphase, hinput]
    exact ih

/-- A drain of an open connection ends after passes that are bounded by what arrives. No pass reads
for more or fewer bytes than its phase lacks, or for none. If the connection is open in the end, the
last read found nothing, and the phase that is left lacks bytes; so if that is the phase of a body,
the body is not empty. -/
theorem drain_exhausts {σ : Type} (onMessage : Connection → σ → Connection × σ) (now : Nat)
    (state : σ) {final : Connection} {left : σ} (hreachable : Reachable connection)
    (hopen : connection.isOpen = true)
    (hdrain : drain onMessage now connection state = (final, left)) :
    ∃ passes, Passes onMessage now connection state passes final left ∧ passes ≠ [] ∧
      passes.length ≤ 3 * connection.inlet.weight + 1 ∧
      (∀ pass ∈ passes, pass.Sound now) ∧
      (final.isOpen = true →
        (∃ last count, passes.getLast? = some last ∧
          last.before.reading? = some (count, .wouldBlock) ∧
          last.before.inlet.read count = (.wouldBlock, final.inlet)) ∧
        final.input.cursor < final.phase.expected ∧
        ∀ length, final.phase = .body length → length ≠ 0) := by
  have hlacks := hreachable.lacks
  have hcollecting := hlacks.isCollecting
  obtain ⟨passes, hpasses, hlength⟩ := exists_passes onMessage now connection state
  rw [hdrain] at hpasses
  refine ⟨passes, hpasses, ?_, ?_, hpasses.sound hcollecting, fun hfinal => ?_⟩
  · rintro rfl
    cases hpasses with
    | closed hclosed => exact hclosed hopen
  · have hlacking : connection.lacking ≠ 0 := Nat.sub_ne_zero_of_lt hlacks
    rw [effort, if_neg hlacking] at hlength
    exact hlength
  · have hleft := hpasses.lacks hcollecting fun _ => hlacks
    refine ⟨hpasses.last_of_open hcollecting hfinal, hleft, ?_⟩
    rintro length hphase rfl
    rw [Lacks, hphase] at hleft
    exact Nat.not_lt_zero _ hleft

/-- An empty message and a message of one byte, in pieces and with an interrupted read. -/
def inPieces : Connection :=
  { id := 1, input := .empty, inlet := ⟨[.data [0], .interrupted, .data [0, 0, 1, 7]], false⟩ }

def keepBodies (connection : Connection) (bodies : List Bytes) : Connection × List Bytes :=
  (connection, bodies ++ [connection.message])

theorem drain_exhausts_inPieces :
    inPieces.Reachable ∧ inPieces.isOpen = true ∧
      ∃ final passes, Passes keepBodies 9 inPieces [] passes final [[], [7]] ∧
        passes.length ≤ 25 ∧ final.isOpen = true ∧ final.phase = .header ∧
        final.input.cursor < 2 ∧
        ∃ last count, passes.getLast? = some last ∧
          last.before.reading? = some (count, .wouldBlock) := by
  have hreachable : inPieces.Reachable := .opened 0 rfl rfl
  have hbodies : (drain keepBodies 9 inPieces []).2 = [[], [7]] := by decide +kernel
  have hdrain : drain keepBodies 9 inPieces [] =
      ((drain keepBodies 9 inPieces []).1, [[], [7]]) := Prod.ext rfl hbodies
  have hopen : (drain keepBodies 9 inPieces []).1.isOpen = true := by decide +kernel
  have hphase : (drain keepBodies 9 inPieces []).1.phase = .header := by decide +kernel
  obtain ⟨passes, hpasses, -, hlength, -, hlast⟩ :=
    drain_exhausts keepBodies 9 [] hreachable rfl hdrain
  obtain ⟨⟨last, count, hend, hreading, -⟩, hlacks, -⟩ := hlast hopen
  rw [hphase] at hlacks
  exact ⟨hreachable, rfl, _, passes, hpasses, hlength, hopen, hphase, hlacks, last, count, hend,
    hreading⟩

end Connection

end MeshControl
