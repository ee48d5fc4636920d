import MeshControl.Proofs.Connection.Collecting

/-!
Messages do not depend on how their bytes come in. A connection attends to one notice after another,
each with what has arrived since the last one, and hands every body to its callback. For any
callback and any pieces, blocked and interrupted reads among them, the bodies it hands over are
those that `FrameStream.cut` cuts from the bytes it has read, and what it still holds is the part of
a frame that the cutting leaves (`deliveries_eq_bodies`).

The stream itself neither ends nor fails here. A callback may do anything to the connection except
read on; if it closes the connection, its message is the last one.
-/

namespace MeshControl

/-- Word that a stream can be read: what has arrived since the last such word, and the time. -/
structure Notice where
  arrivals : List Arrival
  now : Nat

/-- One run of a callback: the body that it saw, and whether it left the connection open. -/
structure Delivery where
  body : Bytes
  leftOpen : Bool
deriving DecidableEq

namespace Notice

/-- Every byte that the notices bring. -/
def bytes (notices : List Notice) : Bytes :=
  Inlet.pending { arrivals := notices.flatMap Notice.arrivals }

/-- What is left of the arrivals when every notice has been attended to: each time reading goes on
up to the first read that finds nothing. -/
def unread (left : List Arrival) : List Notice → List Arrival
  | [] => left
  | notice :: notices => unread (Arrival.pastBlock (left ++ notice.arrivals)) notices

end Notice

theorem FrameStream.joined_append (first second : List Bytes) :
    joined (first ++ second) = joined first ++ joined second := by
  induction first with
  | nil => rfl
  | cons body bodies ih => simp only [List.cons_append, joined, ih, List.append_assoc]

namespace Connection

variable {σ : Type}

/-- The callback, with a record of its runs. -/
def recorded (onMessage : Connection → σ → Connection × σ) (connection : Connection) :
    σ × List Delivery → Connection × σ × List Delivery
  | (state, deliveries) =>
    let (handled, state) := onMessage connection state
    (handled, state, deliveries ++ [⟨connection.message, handled.isOpen⟩])

/-- Lets more arrive. -/
def arrive (connection : Connection) (arrivals : List Arrival) : Connection :=
  { connection with
    inlet := { connection.inlet with arrivals := connection.inlet.arrivals ++ arrivals } }

/-- Attends to one notice after another. -/
def attend (onMessage : Connection → σ → Connection × σ) :
    List Notice → Connection → σ → Connection × σ
  | [], connection, state => (connection, state)
  | notice :: notices, connection, state =>
    let (connection, state) := (connection.arrive notice.arrivals).drain onMessage notice.now state
    attend onMessage notices connection state

/-- What a connection holds is the given beginning of a frame: at most one byte of a length, or the
length and fewer bytes than it says. -/
def Awaits (connection : Connection) (rest : Bytes) : Prop :=
  match connection.phase with
  | .header => rest = connection.input.filled ∧ rest.length < 2
  | .body length =>
    rest = BigEndian.digits 2 length.toNat ++ connection.input.filled ∧
      connection.input.filled.length < length.toNat

/-- An open connection has had no closing callback. A closed one was closed by its last callback. -/
def ClosedByLast (isOpen : Bool) (deliveries : List Delivery) : Prop :=
  if isOpen then ∀ delivery ∈ deliveries, delivery.leftOpen = true
  else ∃ earlier last, deliveries = earlier ++ [last] ∧
    (∀ delivery ∈ earlier, delivery.leftOpen = true) ∧ last.leftOpen = false

/-- What holds of a connection that has read some bytes and delivered some messages: the bytes are
the frames of the messages and the part of a frame that it holds. -/
structure Splits (connection : Connection) (taken : Bytes) (deliveries : List Delivery) : Prop where
  taken_eq : taken = FrameStream.joined (deliveries.map Delivery.body) ++ connection.collected
  collecting : connection.IsCollecting
  short : ∀ delivery ∈ deliveries, delivery.body.length < 65536
  steady : connection.inlet.IsSteady
  closedByLast : ClosedByLast connection.isOpen deliveries
  closed_clean : connection.isOpen = false →
    connection.phase = .header ∧ connection.input.cursor = 0

theorem awaits_collected {connection : Connection}
    (hlacks : connection.input.cursor < connection.phase.expected) :
    connection.Awaits connection.collected := by
  have hlength := connection.input.length_filled
  unfold Awaits collected
  cases hphase : connection.phase with
  | header =>
    rw [hphase] at hlacks
    refine ⟨rfl, ?_⟩
    simpa [Phase.announced, Phase.expected] using hlacks
  | body length =>
    rw [hphase] at hlacks
    exact ⟨rfl, hlength ▸ hlacks⟩

/-- While bytes are lacking, no whole frame is held. -/
theorem front?_collected {connection : Connection}
    (hlacks : connection.input.cursor < connection.phase.expected) :
    FrameStream.front? connection.collected = none := by
  have hlength := connection.input.length_filled
  unfold collected
  cases hphase : connection.phase with
  | header =>
    rw [hphase] at hlacks
    simp only [Phase.announced, List.nil_append]
    simp only [Phase.expected] at hlacks
    rcases hfilled : connection.input.filled with _ | ⟨first, _ | ⟨second, rest⟩⟩
    · rfl
    · rfl
    · simp only [hfilled, List.length_cons] at hlength
      omega
  | body length =>
    rw [hphase] at hlacks
    have hvalue : BigEndian.value (BigEndian.digits 2 length.toNat) = length.toNat :=
      BigEndian.value_digits length.toNat_lt
    simp only [Phase.expected] at hlacks
    -- A front frame is looked for behind two bytes, so the length has to be shown as two bytes.
    have hshort : ¬ length.toNat ≤ connection.input.filled.length := by omega
    simp only [Phase.announced]
    rw [show BigEndian.digits 2 length.toNat =
      [UInt8.ofNat (length.toNat / 256), UInt8.ofNat length.toNat] from rfl] at hvalue ⊢
    simp only [List.cons_append, List.nil_append, FrameStream.front?, hvalue,
      FrameStream.splitOff?, if_neg hshort]

/-- The messages and what is held are what cutting the bytes gives. -/
theorem Splits.cut_eq {connection : Connection} {taken : Bytes} {deliveries : List Delivery}
    (hsplits : connection.Splits taken deliveries)
    (hlacks : connection.input.cursor < connection.phase.expected) :
    FrameStream.cut taken = ⟨deliveries.map Delivery.body, connection.collected⟩ := by
  rw [hsplits.taken_eq]
  apply FrameStream.cut_joined_append
  · intro body hbody
    obtain ⟨delivery, hdelivery, rfl⟩ := List.mem_map.mp hbody
    exact hsplits.short delivery hdelivery
  · exact front?_collected hlacks

/-- An attempt that does not stop keeps the account of the bytes. -/
theorem Splits.fill {connection next : Connection} {now : Nat} {outcome : Fill} {taken : Bytes}
    {deliveries : List Delivery} (hsplits : connection.Splits taken deliveries)
    (hopen : connection.isOpen = true) (hfill : connection.fill now = (outcome, next)) :
    ∃ bytes, connection.inlet.pending = bytes ++ next.inlet.pending ∧
      next.Splits (taken ++ bytes) deliveries := by
  obtain ⟨-, hcollecting, -, bytes, hpending, hcollected⟩ := fill_bytes hsplits.collecting hfill
  obtain ⟨hsame, hsteady, -, -⟩ := fill_steady hsplits.collecting hsplits.steady hfill
  refine ⟨bytes, hpending, ?_, hcollecting, hsplits.short, hsteady, ?_, ?_⟩
  · rw [hcollected, ← List.append_assoc, ← hsplits.taken_eq]
  · rw [hsame]
    exact hsplits.closedByLast
  · intro hclosed
    rw [hsame, hopen] at hclosed
    cases hclosed

/-- Turning to the body of an announced length keeps the account of the bytes. -/
theorem Splits.enterBody {connection : Connection} {taken : Bytes} {deliveries : List Delivery}
    (hsplits : connection.Splits taken deliveries) (hopen : connection.isOpen = true)
    (hphase : connection.phase = .header)
    (hcomplete : connection.input.cursor = connection.phase.expected) :
    connection.enterBody.Splits taken deliveries := by
  rw [hphase] at hcomplete
  have hdigits := digits_announcedLength hcomplete
  have hcollected : connection.enterBody.collected = connection.collected := by
    simp [collected, Connection.enterBody, Phase.announced, hphase, hdigits]
  refine ⟨?_, Nat.zero_le _, hsplits.short, hsplits.steady, hsplits.closedByLast, ?_⟩
  · rw [hcollected]
    exact hsplits.taken_eq
  · intro hclosed
    have hstill : connection.isOpen = false := hclosed
    rw [hopen] at hstill
    cases hstill

/-- Handing over a body moves it from what is held to what has been delivered, whatever the callback
makes of the connection. -/
theorem Splits.leaveBody {connection : Connection} {taken : Bytes} {deliveries : List Delivery}
    {length : UInt16} (handled : Connection) (hsplits : connection.Splits taken deliveries)
    (hopen : connection.isOpen = true) (hphase : connection.phase = .body length)
    (hcomplete : connection.input.cursor = connection.phase.expected) :
    (handled.leaveBody connection.inlet).Splits taken
      (deliveries ++ [⟨connection.message, handled.isOpen⟩]) := by
  have hlength : connection.message.length = length.toNat := by
    rw [message, Buffer.length_filled, hcomplete, hphase, Phase.expected]
  have hframe : FrameStream.frame connection.message = connection.collected := by
    rw [FrameStream.frame, hlength, collected, hphase]
    rfl
  have hearlier : ∀ delivery ∈ deliveries, delivery.leftOpen = true := by
    have h := hsplits.closedByLast
    rwa [hopen] at h
  refine ⟨?_, Nat.zero_le _, ?_, hsplits.steady, ?_, fun _ => ⟨rfl, rfl⟩⟩
  · have hempty : (handled.leaveBody connection.inlet).collected = [] := by
      simp [collected, Connection.leaveBody, Phase.announced]
    rw [hempty, List.map_append, FrameStream.joined_append, List.append_nil]
    simp only [List.map_cons, List.map_nil, FrameStream.joined, List.append_nil, hframe]
    exact hsplits.taken_eq
  · intro delivery hdelivery
    rcases List.mem_append.mp hdelivery with hold | hnew
    · exact hsplits.short delivery hold
    · rw [List.mem_singleton.mp hnew, hlength]
      exact length.toNat_lt
  · change ClosedByLast handled.isOpen _
    cases hhandled : handled.isOpen with
    | true =>
      intro delivery hdelivery
      rcases List.mem_append.mp hdelivery with hold | hnew
      · exact hearlier delivery hold
      · rw [List.mem_singleton.mp hnew]
    | false => exact ⟨deliveries, _, rfl, hearlier, rfl⟩

/-- A connection comes to another by reading on, with the bytes accounted for: more bytes are
lacking at the end, and unless a callback has closed the connection it was read up to the first read
that finds nothing. -/
structure Drains (connection : Connection) (taken : Bytes) (final : Connection)
    (deliveries : List Delivery) : Prop where
  splits : ∃ bytes, connection.inlet.pending = bytes ++ final.inlet.pending ∧
    final.Splits (taken ++ bytes) deliveries
  lacks : final.input.cursor < final.phase.expected
  past : final.isOpen = true →
    final.inlet.arrivals = Arrival.pastBlock connection.inlet.arrivals

/-- A step that takes bytes and does not come to the end of reading may go first. -/
theorem Drains.prepend {connection next final : Connection} {taken bytes : Bytes}
    {deliveries : List Delivery}
    (h : next.Drains (taken ++ bytes) final deliveries)
    (hpending : connection.inlet.pending = bytes ++ next.inlet.pending)
    (hpast : Arrival.pastBlock next.inlet.arrivals = Arrival.pastBlock connection.inlet.arrivals) :
    connection.Drains taken final deliveries := by
  obtain ⟨more, hmore, hfinal⟩ := h.splits
  refine ⟨⟨bytes ++ more, ?_, ?_⟩, h.lacks, ?_⟩
  · rw [hpending, hmore, List.append_assoc]
  · rw [← List.append_assoc]
    exact hfinal
  · intro hopen
    rw [h.past hopen, hpast]

/-- A drain reads on, whatever the callback is, and keeps the account of the bytes. -/
theorem Splits.drain (onMessage : Connection → σ → Connection × σ) (now : Nat)
    (connection : Connection) (state : σ × List Delivery) (taken : Bytes)
    (hsplits : connection.Splits taken state.2) :
    connection.Drains taken (connection.drain (recorded onMessage) now state).1
      (connection.drain (recorded onMessage) now state).2.2 := by
  -- One case for each way through a drain. The account is kept by the attempt to complete the
  -- phase, by turning to a body and by handing one over, so that it holds where the rest begins.
  induction connection, state using drain.induct (recorded onMessage) now generalizing taken with
  | case1 connection state hopen next hfill =>
    rw [drain_stop hopen hfill]
    obtain ⟨bytes, hpending, hnext⟩ := hsplits.fill hopen hfill
    obtain ⟨-, -, hstop, -⟩ := fill_steady hsplits.collecting hsplits.steady hfill
    obtain ⟨hlacks, hpast⟩ := hstop rfl
    exact ⟨⟨bytes, hpending, hnext⟩, hlacks, fun _ => hpast⟩
  | case2 connection state hopen next hfill _ ih =>
    rw [drain_again hopen hfill]
    obtain ⟨bytes, hpending, hnext⟩ := hsplits.fill hopen hfill
    obtain ⟨-, -, -, hpast⟩ := fill_steady hsplits.collecting hsplits.steady hfill
    exact (ih (taken ++ bytes) hnext).prepend hpending (hpast nofun)
  | case3 connection state hopen next hfill hphase _ ih =>
    rw [drain_header hopen hfill hphase]
    obtain ⟨bytes, hpending, hnext⟩ := hsplits.fill hopen hfill
    obtain ⟨-, -, hcomplete, -⟩ := fill_bytes hsplits.collecting hfill
    obtain ⟨hsame, -, -, hpast⟩ := fill_steady hsplits.collecting hsplits.steady hfill
    have hentered := hnext.enterBody (hsame.trans hopen) hphase (hcomplete rfl)
    exact (ih (taken ++ bytes) hentered).prepend hpending (hpast nofun)
  | case4 connection state hopen next hfill length hphase handled state' hmessage _ ih =>
    rw [drain_body hopen hfill hphase hmessage]
    obtain ⟨bytes, hpending, hnext⟩ := hsplits.fill hopen hfill
    obtain ⟨-, -, hcomplete, -⟩ := fill_bytes hsplits.collecting hfill
    obtain ⟨hsame, -, -, hpast⟩ := fill_steady hsplits.collecting hsplits.steady hfill
    have hrecord : state'.2 = state.2 ++ [⟨next.message, handled.isOpen⟩] := by
      simp only [recorded, Prod.mk.injEq] at hmessage
      obtain ⟨rfl, rfl⟩ := hmessage
      rfl
    have hdelivered := hnext.leaveBody handled (hsame.trans hopen) hphase (hcomplete rfl)
    rw [← hrecord] at hdelivered
    exact (ih (taken ++ bytes) hdelivered).prepend hpending (hpast nofun)
  | case5 connection state hclosed =>
    rw [drain_closed hclosed]
    have hfalse : connection.isOpen = false := Bool.eq_false_iff.mpr hclosed
    obtain ⟨hphase, hcursor⟩ := hsplits.closed_clean hfalse
    refine ⟨⟨[], rfl, ?_⟩, ?_, fun hopen => absurd hopen hclosed⟩
    · rw [List.append_nil]
      exact hsplits
    · rw [hphase, hcursor]
      exact Nat.two_pos

theorem Splits.arrive {connection : Connection} {taken : Bytes} {deliveries : List Delivery}
    {arrivals : List Arrival} (hsplits : connection.Splits taken deliveries)
    (hsteady : ∀ arrival ∈ arrivals, arrival.isSteady = true) :
    (connection.arrive arrivals).Splits taken deliveries := by
  obtain ⟨hended, hall⟩ := hsplits.steady
  refine ⟨hsplits.taken_eq, hsplits.collecting, hsplits.short, ⟨hended, ?_⟩,
    hsplits.closedByLast, hsplits.closed_clean⟩
  intro arrival harrival
  rcases List.mem_append.mp harrival with hold | hnew
  · exact hall arrival hold
  · exact hsteady arrival hnew

theorem attend_closed (onMessage : Connection → σ → Connection × σ) (notices : List Notice)
    (connection : Connection) (state : σ) (hclosed : ¬ connection.isOpen = true) :
    ¬ (attend onMessage notices connection state).1.isOpen = true := by
  induction notices generalizing connection with
  | nil => exact hclosed
  | cons notice notices ih =>
    have harrived : ¬ (connection.arrive notice.arrivals).isOpen = true := hclosed
    rw [attend, drain_closed harrived]
    exact ih _ harrived

/-- Attending to any number of notices keeps the account of the bytes. -/
theorem Splits.attend (onMessage : Connection → σ → Connection × σ) {notices : List Notice}
    (hsteady : ∀ notice ∈ notices, ∀ arrival ∈ notice.arrivals, arrival.isSteady = true)
    (connection : Connection) (state : σ × List Delivery) (taken : Bytes)
    (hsplits : connection.Splits taken state.2)
    (hlacks : connection.input.cursor < connection.phase.expected) :
    let (final, after) := attend (recorded onMessage) notices connection state
    ∃ bytes, connection.inlet.pending ++ Notice.bytes notices = bytes ++ final.inlet.pending ∧
      final.Splits (taken ++ bytes) after.2 ∧
      final.input.cursor < final.phase.expected ∧
      (final.isOpen = true →
        final.inlet.arrivals = Notice.unread connection.inlet.arrivals notices) := by
  induction notices generalizing connection state taken with
  | nil =>
    refine ⟨[], ?_, ?_, hlacks, fun _ => rfl⟩
    · simp [Notice.bytes, Inlet.pending]
    · rw [List.append_nil]
      exact hsplits
  | cons notice notices ih =>
    have harrived := hsplits.arrive (hsteady notice (List.mem_cons_self ..))
    have hdrain := harrived.drain onMessage notice.now _ state taken
    simp only [Connection.attend]
    cases hrun : (connection.arrive notice.arrivals).drain
        (recorded onMessage) notice.now state with
    | mk drained after =>
      rw [hrun] at hdrain
      obtain ⟨bytes, hpending, hdrained⟩ := hdrain.splits
      have hrest := ih (fun later hlater => hsteady later (List.mem_cons_of_mem _ hlater))
        drained after _ hdrained hdrain.lacks
      cases hattend : Connection.attend (recorded onMessage) notices drained after with
      | mk final last =>
        simp only [hattend] at hrest
        obtain ⟨more, hmore, hfinal, hfinalLacks, hleft⟩ := hrest
        refine ⟨bytes ++ more, ?_, ?_, hfinalLacks, ?_⟩
        · calc
            connection.inlet.pending ++ Notice.bytes (notice :: notices) =
                (connection.arrive notice.arrivals).inlet.pending ++ Notice.bytes notices := by
              simp [Notice.bytes, Inlet.pending, Connection.arrive]
            _ = bytes ++ more ++ final.inlet.pending := by
              rw [hpending, List.append_assoc, hmore, List.append_assoc]
        · rw [← List.append_assoc]
          exact hfinal
        · intro hopen
          -- What is closed stays closed, so the connection was open after the first notice.
          have hstill : drained.isOpen = true := by
            apply Decidable.byContradiction
            intro hclosed
            have hfinalClosed := attend_closed (recorded onMessage) notices drained after hclosed
            rw [hattend] at hfinalClosed
            exact hfinalClosed hopen
          rw [hleft hopen, hdrain.past hstill]
          rfl

/-- Framing is independent of chunking. A new connection with room for any number of bytes attends
to any notices, with any callback. The bodies that the callback sees are the bodies of the bytes
that were read, in order. While the connection is open, it has read up to the last read that found
nothing, no callback has closed it, and it holds what cutting leaves over. Once it is closed, its
last callback closed it, and nothing was read behind that callback's message. -/
theorem deliveries_eq_bodies (onMessage : Connection → σ → Connection × σ) (state : σ)
    (id since : Nat) (outlet : Outlet) {capacity : Nat} {input : Buffer} {notices : List Notice}
    (hinput : Buffer.withCapacity capacity = .ok input)
    (hsteady : ∀ notice ∈ notices, ∀ arrival ∈ notice.arrivals, arrival.isSteady = true) :
    let (final, _, deliveries) := attend (recorded onMessage) notices
      { id, outlet, input, lastActivity := since } (state, [])
    ∃ taken, Notice.bytes notices = taken ++ final.inlet.pending ∧
      deliveries.map Delivery.body = (FrameStream.cut taken).bodies ∧
      (final.isOpen = true → final.inlet.arrivals = Notice.unread [] notices ∧
        (∀ delivery ∈ deliveries, delivery.leftOpen = true) ∧
        final.Awaits (FrameStream.cut taken).rest) ∧
      (final.isOpen = false → (FrameStream.cut taken).rest = [] ∧
        ∃ earlier last, deliveries = earlier ++ [last] ∧
          (∀ delivery ∈ earlier, delivery.leftOpen = true) ∧ last.leftOpen = false) := by
  have hempty : input.filled = [] := Buffer.filled_withCapacity hinput
  have hcursor : input.cursor = 0 := by rw [← Buffer.length_filled, hempty, List.length_nil]
  let start : Connection := { id, outlet, input, lastActivity := since }
  have hstart : start.Splits [] [] := by
    refine ⟨?_, ?_, by simp, ⟨rfl, by simp [start]⟩, by simp [ClosedByLast, start], by simp [start]⟩
    · simp [start, collected, Phase.announced, hempty, FrameStream.joined]
    · exact Nat.le_trans (Nat.le_of_eq hcursor) (Nat.zero_le 2)
  have hlacks : start.input.cursor < start.phase.expected :=
    Nat.lt_of_le_of_lt (Nat.le_of_eq hcursor) Nat.two_pos
  have hrun := Splits.attend onMessage hsteady start (state, []) [] hstart hlacks
  cases hattend : attend (recorded onMessage) notices start (state, []) with
  | mk final after =>
    obtain ⟨last, deliveries⟩ := after
    simp only [hattend, List.nil_append] at hrun
    obtain ⟨taken, hbytes, hfinal, hfinalLacks, hleft⟩ := hrun
    have hcut := hfinal.cut_eq hfinalLacks
    refine ⟨taken, hbytes, by rw [hcut], fun hopen => ⟨hleft hopen, ?_, ?_⟩, fun hclosed => ?_⟩
    · have hclosing := hfinal.closedByLast
      rwa [hopen] at hclosing
    · rw [hcut]
      exact awaits_collected hfinalLacks
    · obtain ⟨hphase, hnone⟩ := hfinal.closed_clean hclosed
      have hclosing := hfinal.closedByLast
      rw [hclosed] at hclosing
      refine ⟨?_, hclosing⟩
      rw [hcut]
      have hfilled : final.input.filled = [] :=
        List.eq_nil_of_length_eq_zero (final.input.length_filled.trans hnone)
      simp [collected, hphase, hfilled, Phase.announced]

/-- The messages `7`, nothing and `9 8` in pieces that cut every frame, and two bytes more. -/
def cutFrames : List Notice :=
  [⟨[.data [0], .wouldBlock, .data [1]], 0⟩, ⟨[.data [7, 0], .interrupted, .data [0, 0, 2]], 1⟩,
    ⟨[.data [9], .wouldBlock], 2⟩, ⟨[.data [8, 0, 1]], 3⟩]

/-- A callback that counts messages and closes the connection at one of two bytes. -/
def closeAtTwo (connection : Connection) (count : Nat) : Connection × Nat :=
  (if connection.message.length = 2 then connection.close else connection, count + 1)

theorem deliveries_eq_bodies_cutFrames :
    Buffer.withCapacity 0 = .ok .empty ∧
      (∀ notice ∈ cutFrames, ∀ arrival ∈ notice.arrivals, arrival.isSteady = true) ∧
      let (final, _, deliveries) := attend (recorded closeAtTwo) cutFrames
        { id := 1, outlet := {}, input := .empty, lastActivity := 0 } (0, [])
      deliveries = [⟨[7], true⟩, ⟨[], true⟩, ⟨[9, 8], false⟩] ∧
        final.isOpen = false ∧ final.inlet.pending = [0, 1] ∧
        ∃ taken, Notice.bytes cutFrames = taken ++ [0, 1] ∧
          (FrameStream.cut taken).bodies = [[7], [], [9, 8]] := by
  have hinput : Buffer.withCapacity 0 = .ok .empty := rfl
  have hsteady : ∀ notice ∈ cutFrames, ∀ arrival ∈ notice.arrivals, arrival.isSteady = true := by
    decide
  obtain ⟨taken, hbytes, hbodies, -⟩ :=
    deliveries_eq_bodies closeAtTwo 0 1 0 {} hinput hsteady
  refine ⟨hinput, hsteady, by decide +kernel, by decide +kernel, by decide +kernel, taken, ?_, ?_⟩
  · rw [hbytes]
    congr 1
    decide +kernel
  · rw [← hbodies]
    decide +kernel

end Connection

end MeshControl
