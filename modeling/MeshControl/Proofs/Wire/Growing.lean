import MeshControl.Wire.Buffer.Lemmas

/-!
A growable buffer as a list of bytes. What is appended and filled goes behind the bytes, what is
patched replaces two of them, and a reset takes them all away; the bytes that a reset leaves in the
storage are never seen again. Room is made by keeping the capacity where it is enough, and else by
doubling it or going straight to what is needed (`Buffer.capacityFor`). A call fails only for want
of memory, and changes nothing then.

`Buffer.History` is any number of permitted calls on one buffer, among them calls for which the
memory that they would have to grow by is refused. No number that a call computes on the way leaves
the 64-bit range (`Buffer.Call.InRange`), whatever sizes are asked for. The main statement is
`Buffer.filled_eq_bytesOf`.
-/

namespace MeshControl

namespace Buffer

/-- The capacity that a buffer takes to have room for `additional` bytes: what it has if that is
enough, and else twice that or exactly what is needed, whichever is more. -/
def capacityFor (buffer : Buffer) (additional : Nat) : Nat :=
  if buffer.cursor + additional ≤ buffer.capacity then buffer.capacity
  else max (2 * buffer.capacity) (buffer.cursor + additional)

variable {buffer : Buffer} {additional : Nat}

theorem capacity_le_capacityFor (buffer : Buffer) (additional : Nat) :
    buffer.capacity ≤ buffer.capacityFor additional := by
  unfold capacityFor
  split <;> omega

theorem le_capacityFor (buffer : Buffer) (additional : Nat) :
    buffer.cursor + additional ≤ buffer.capacityFor additional := by
  unfold capacityFor
  split <;> omega

theorem capacityFor_of_le (h : buffer.cursor + additional ≤ buffer.capacity) :
    buffer.capacityFor additional = buffer.capacity :=
  if_pos h

/-- A buffer that grows comes to twice its capacity at least. -/
theorem two_mul_capacity_le_capacityFor (h : buffer.capacity < buffer.capacityFor additional) :
    2 * buffer.capacity ≤ buffer.capacityFor additional := by
  by_cases hfits : buffer.cursor + additional ≤ buffer.capacity
  · rw [capacityFor_of_le hfits] at h
    omega
  · rw [capacityFor, if_neg hfits]
    exact Nat.le_max_left ..

/-- What needs no more room leaves the capacity alone. -/
@[simp] theorem capacityFor_zero (buffer : Buffer) : buffer.capacityFor 0 = buffer.capacity :=
  capacityFor_of_le buffer.cursor_le

end Buffer

namespace Encoder

variable {additional : Nat} {bytes : Bytes} {before : Buffer}

theorem reserve_of_le (h : before.capacityFor additional ≤ maxCapacity) :
    ∃ after, reserve additional before = .ok () after ∧ after.filled = before.filled ∧
      after.capacity = before.capacityFor additional := by
  have hcapacity := before.capacity_le_capacityFor additional
  have hneeded := before.le_capacityFor additional
  have hcountable : ¬ maxSize < before.cursor + additional := by
    simp only [maxSize, maxCapacity] at h ⊢
    omega
  simp only [reserve, if_neg hcountable]
  by_cases hfits : before.cursor + additional ≤ before.capacity
  · rw [if_pos hfits, Buffer.capacityFor_of_le hfits]
    exact ⟨before, rfl, rfl, rfl⟩
  · -- The doubled capacity is a size, so it is not cut off where sizes end.
    have hgrown : Buffer.grownCapacity before.capacity (before.cursor + additional) =
        before.capacityFor additional := by
      simp only [Buffer.grownCapacity, Buffer.capacityFor, if_neg hfits]
      simp only [maxSize, maxCapacity] at h hcountable ⊢
      omega
    rw [if_neg hfits, hgrown, if_neg (Nat.not_lt.mpr h)]
    refine ⟨_, rfl, Buffer.filled_extend _ _, ?_⟩
    rw [Buffer.capacity_extend, Nat.max_eq_right hcapacity]

theorem reserve_of_lt (hheld : before.capacity ≤ maxCapacity)
    (h : maxCapacity < before.capacityFor additional) :
    reserve additional before =
      .error (.outOfMemory (min maxSize (before.capacityFor additional))) before := by
  have hneeded := before.le_capacityFor additional
  have hfits : ¬ before.cursor + additional ≤ before.capacity := by
    intro hfits
    rw [Buffer.capacityFor_of_le hfits] at h
    omega
  simp only [reserve, if_neg hfits]
  by_cases hcountable : maxSize < before.cursor + additional
  · rw [if_pos hcountable, Nat.min_eq_left (by omega)]
  · have hgrown : Buffer.grownCapacity before.capacity (before.cursor + additional) =
        min maxSize (before.capacityFor additional) := by
      simp only [Buffer.grownCapacity, Buffer.capacityFor, if_neg hfits]
      simp only [maxSize, maxCapacity] at hheld hcountable ⊢
      omega
    have hlarge : maxCapacity < min maxSize (before.capacityFor additional) :=
      Nat.lt_min.mpr ⟨by decide, h⟩
    rw [if_neg hcountable, hgrown, if_pos hlarge]

theorem append_of_le (h : before.capacityFor bytes.length ≤ maxCapacity) :
    ∃ after, append bytes before = .ok () after ∧ after.filled = before.filled ++ bytes ∧
      after.capacity = before.capacityFor bytes.length := by
  obtain ⟨grown, hreserve, -, hcapacity⟩ := reserve_of_le h
  have happend : append bytes before = .ok () (grown.fill bytes) := by
    simp only [append, hreserve]
  obtain ⟨_, _, _, hfilled⟩ := append_eq_ok_iff.mp happend
  exact ⟨_, happend, hfilled, by rw [Buffer.capacity_fill, hcapacity]⟩

theorem append_of_lt (hheld : before.capacity ≤ maxCapacity)
    (h : maxCapacity < before.capacityFor bytes.length) :
    append bytes before =
      .error (.outOfMemory (min maxSize (before.capacityFor bytes.length))) before := by
  simp only [append, reserve_of_lt hheld h]

end Encoder

namespace Buffer

theorem capacityFor_empty (capacity : Nat) : empty.capacityFor capacity = capacity := by
  simp only [capacityFor, show empty.cursor = 0 from rfl, show empty.capacity = 0 from rfl]
  split <;> omega

theorem withCapacity_of_le {capacity : Nat} (h : capacity ≤ maxCapacity) :
    ∃ opened, withCapacity capacity = .ok opened ∧ opened.filled = [] ∧
      opened.capacity = capacity := by
  have hneeded := capacityFor_empty capacity
  obtain ⟨opened, hreserve, hfilled, hcapacity⟩ :=
    Encoder.reserve_of_le (Nat.le_trans (Nat.le_of_eq hneeded) h)
  refine ⟨opened, ?_, hfilled, hcapacity.trans hneeded⟩
  simp only [withCapacity, hreserve]

theorem withCapacity_of_lt {capacity : Nat} (h : maxCapacity < capacity) :
    withCapacity capacity = .error (.outOfMemory (min maxSize capacity)) := by
  have hneeded := capacityFor_empty capacity
  have hreserve := Encoder.reserve_of_lt (show empty.capacity ≤ maxCapacity from Nat.zero_le _)
    (Nat.lt_of_lt_of_eq h hneeded.symm)
  simp only [withCapacity, hreserve, hneeded]

/-- A buffer is opened with exactly the capacity that is asked for. -/
theorem capacity_withCapacity {capacity : Nat} (h : withCapacity capacity = .ok buffer) :
    buffer.capacity = capacity := by
  by_cases hcapacity : capacity ≤ maxCapacity
  · obtain ⟨opened, hopened, -, hsame⟩ := withCapacity_of_le hcapacity
    obtain rfl : opened = buffer := Except.ok.inj (hopened.symm.trans h)
    exact hsame
  · rw [withCapacity_of_lt (Nat.lt_of_not_le hcapacity)] at h
    cases h

/-- Something that is done to a buffer. -/
inductive Call where
  | reserve (additional : Nat)
  | append (bytes : Bytes)
  /-- Bytes are put into a slice of some length at the cursor, which then moves past them. -/
  | fill (length : Nat) (bytes : Bytes)
  | patch (offset : Nat) (word : UInt16)
  | reset

namespace Call

/-- A slice is filled with no more bytes than it has, and only bytes that are filled are patched. -/
def Permitted (buffer : Buffer) : Call → Prop
  | fill length bytes => bytes.length ≤ buffer.slice length
  | patch offset _ => offset + 2 ≤ buffer.cursor
  | _ => True

instance (buffer : Buffer) : (call : Call) → Decidable (call.Permitted buffer)
  | fill length bytes => inferInstanceAs (Decidable (bytes.length ≤ buffer.slice length))
  | patch offset _ => inferInstanceAs (Decidable (offset + 2 ≤ buffer.cursor))
  | reserve _ | append _ | reset => inferInstanceAs (Decidable True)

def run : Call → Encoder Unit
  | reserve additional => Encoder.reserve additional
  | append bytes => Encoder.append bytes
  | fill _ bytes => modify fun buffer => buffer.fill bytes
  | patch offset word => modify fun buffer => (buffer.patch? offset word).getD buffer
  | reset => modify Buffer.reset

/-- The number of bytes that a call makes room for. -/
def additional : Call → Nat
  | reserve additional => additional
  | append bytes => bytes.length
  | _ => 0

/-- The number of bytes that a call puts behind those that are there. -/
def added : Call → Nat
  | append bytes => bytes.length
  | fill _ bytes => bytes.length
  | _ => 0

/-- What a call makes of a list of bytes. -/
def onBytes : Call → Bytes → Bytes
  | reserve _, bytes => bytes
  | append more, bytes => bytes ++ more
  | fill _ more, bytes => bytes ++ more
  | patch offset word, bytes =>
    bytes.take offset ++ BigEndian.digits 2 word.toNat ++ bytes.drop (offset + 2)
  | reset, _ => []

/-- The numbers that a call computes are sizes, and no difference that it computes goes below zero.
-/
structure InRange (call : Call) (before : Buffer) : Prop where
  room : before.cursor ≤ before.capacity
  doubled : 2 * before.capacity ≤ maxSize
  grown : before.capacity ≤ before.capacityFor call.additional
  written : ∀ after, call.run before = .ok () after →
    before.cursor + call.added ≤ after.capacity ∧ after.capacity ≤ maxSize
  /-- A slice ends where it would end if sizes had no limit. -/
  sliced : ∀ length, before.cursor + before.slice length =
    min (min (before.cursor + length) maxSize) before.capacity
  patched : ∀ offset word, call = .patch offset word → offset + 2 ≤ before.capacity

variable {call : Call} {before : Buffer}

theorem run_of_le (hpermitted : call.Permitted before)
    (h : before.capacityFor call.additional ≤ maxCapacity) :
    ∃ after, call.run before = .ok () after ∧ after.filled = call.onBytes before.filled ∧
      after.capacity = before.capacityFor call.additional := by
  cases call with
  | reserve additional => exact Encoder.reserve_of_le h
  | append bytes => exact Encoder.append_of_le h
  | fill length bytes =>
    have hslice : bytes.length ≤ before.slice length := hpermitted
    have hroom : bytes.length ≤ before.room := by
      simp only [slice] at hslice
      simp only [room]
      omega
    exact ⟨_, rfl, filled_fill hroom, (capacity_fill ..).trans before.capacityFor_zero.symm⟩
  | patch offset word =>
    obtain ⟨patched, hpatch, hfilled⟩ := exists_patch? word hpermitted
    refine ⟨patched, ?_, hfilled, (capacity_of_patch? hpatch).trans before.capacityFor_zero.symm⟩
    change EStateM.Result.ok () ((before.patch? offset word).getD before) = _
    rw [hpatch, Option.getD_some]
  | reset => exact ⟨_, rfl, before.filled_reset, before.capacityFor_zero.symm⟩

theorem run_of_lt (hheld : before.capacity ≤ maxCapacity)
    (h : maxCapacity < before.capacityFor call.additional) :
    call.run before =
      .error (.outOfMemory (min maxSize (before.capacityFor call.additional))) before := by
  cases call with
  | reserve additional => exact Encoder.reserve_of_lt hheld h
  | append bytes => exact Encoder.append_of_lt hheld h
  | fill | patch | reset =>
    simp only [additional, capacityFor_zero] at h
    omega

theorem of_run_eq_ok {after : Buffer} (hpermitted : call.Permitted before)
    (hheld : before.capacity ≤ maxCapacity) (hrun : call.run before = .ok () after) :
    before.capacityFor call.additional ≤ maxCapacity ∧
      after.filled = call.onBytes before.filled ∧
      after.capacity = before.capacityFor call.additional := by
  by_cases h : before.capacityFor call.additional ≤ maxCapacity
  · obtain ⟨_, hok, hfilled, hcapacity⟩ := run_of_le hpermitted h
    obtain rfl := (EStateM.Result.ok.inj (hok.symm.trans hrun)).2
    exact ⟨h, hfilled, hcapacity⟩
  · rw [run_of_lt hheld (Nat.lt_of_not_le h)] at hrun
    cases hrun

/-- A call that fails changes nothing. -/
theorem eq_of_run_eq_error {after : Buffer} {e : WireError} (hpermitted : call.Permitted before)
    (hheld : before.capacity ≤ maxCapacity) (hrun : call.run before = .error e after) :
    after = before := by
  by_cases h : before.capacityFor call.additional ≤ maxCapacity
  · obtain ⟨_, hok, -⟩ := run_of_le hpermitted h
    rw [hok] at hrun
    cases hrun
  · rw [run_of_lt hheld (Nat.lt_of_not_le h)] at hrun
    exact (EStateM.Result.error.inj hrun).2.symm

/-- What a call writes ends where room was made for it. -/
theorem cursor_add_added_le (hpermitted : call.Permitted before) :
    before.cursor + call.added ≤ before.capacityFor call.additional := by
  have hcursor := before.cursor_le
  cases call with
  | append bytes => exact before.le_capacityFor bytes.length
  | fill length bytes =>
    have hslice : bytes.length ≤ before.slice length := hpermitted
    simp only [slice] at hslice
    simp only [additional, added, capacityFor_zero]
    simp only [capacity] at hslice ⊢
    omega
  | reserve additional =>
    exact Nat.le_trans (Nat.le_add_right ..) (before.le_capacityFor additional)
  | patch | reset => exact Nat.le_trans hcursor (before.capacity_le_capacityFor _)

theorem inRange (hpermitted : call.Permitted before) (hheld : before.capacity ≤ maxCapacity) :
    call.InRange before where
  room := before.cursor_le
  doubled := by
    simp only [maxSize, maxCapacity] at hheld ⊢
    omega
  grown := before.capacity_le_capacityFor _
  written after hrun := by
    obtain ⟨hfits, -, hcapacity⟩ := of_run_eq_ok hpermitted hheld hrun
    rw [hcapacity]
    exact ⟨cursor_add_added_le hpermitted, Nat.le_trans hfits (by decide)⟩
  sliced length := by
    have hcursor := before.cursor_le
    simp only [slice, capacity, maxSize, maxCapacity] at hheld ⊢
    omega
  patched offset word hcall := by
    subst hcall
    exact Nat.le_trans hpermitted before.cursor_le

end Call

/-- What becomes of a buffer by permitted calls, each with its failure if it failed. A call that
needs more memory may be refused it at any time. -/
inductive History (first : Buffer) : List (Call × Option WireError) → Buffer → Prop where
  | start : History first [] first
  | done {past : List (Call × Option WireError)} {call : Call} {before after : Buffer}
    (hpast : History first past before) (hpermitted : call.Permitted before)
    (hrun : call.run before = .ok () after) : History first (past ++ [(call, none)]) after
  | failed {past : List (Call × Option WireError)} {call : Call} {before after : Buffer}
    {e : WireError} (hpast : History first past before) (hpermitted : call.Permitted before)
    (hrun : call.run before = .error e after) : History first (past ++ [(call, some e)]) after
  | refused {past : List (Call × Option WireError)} {call : Call} {before : Buffer}
    (hpast : History first past before) (hpermitted : call.Permitted before)
    (hgrows : before.capacity < before.capacityFor call.additional) :
    History first
      (past ++ [(call, some (.outOfMemory (before.capacityFor call.additional)))]) before

/-- The list of bytes that calls come to, leaving out those that failed. -/
def bytesOf (past : List (Call × Option WireError)) : Bytes :=
  past.foldl (fun bytes entry => if entry.2 = none then entry.1.onBytes bytes else bytes) []

theorem bytesOf_append (past : List (Call × Option WireError)) (call : Call)
    (failure? : Option WireError) :
    bytesOf (past ++ [(call, failure?)]) =
      if failure? = none then call.onBytes (bytesOf past) else bytesOf past := by
  simp only [bytesOf, List.foldl_append, List.foldl_cons, List.foldl_nil]

variable {first : Buffer} {past : List (Call × Option WireError)}

theorem History.capacity_le (h : History first past buffer)
    (hfirst : first.capacity ≤ maxCapacity) :
    first.capacity ≤ buffer.capacity ∧ buffer.capacity ≤ maxCapacity := by
  induction h with
  | start => exact ⟨Nat.le_refl _, hfirst⟩
  | done _ hpermitted hrun ih =>
    obtain ⟨hfits, -, hcapacity⟩ := Call.of_run_eq_ok hpermitted ih.2 hrun
    rw [hcapacity]
    exact ⟨Nat.le_trans ih.1 (capacity_le_capacityFor ..), hfits⟩
  | failed _ hpermitted hrun ih => rwa [Call.eq_of_run_eq_error hpermitted ih.2 hrun]
  | refused _ _ _ ih => exact ih

theorem History.filled_eq (h : History first past buffer) (hfirst : first.capacity ≤ maxCapacity)
    (hempty : first.filled = []) : buffer.filled = bytesOf past := by
  induction h with
  | start => exact hempty
  | done hpast hpermitted hrun ih =>
    obtain ⟨-, hfilled, -⟩ := Call.of_run_eq_ok hpermitted (hpast.capacity_le hfirst).2 hrun
    rw [bytesOf_append, if_pos rfl, hfilled, ih]
  | failed hpast hpermitted hrun ih =>
    rw [bytesOf_append, if_neg nofun,
      Call.eq_of_run_eq_error hpermitted (hpast.capacity_le hfirst).2 hrun, ih]
  | refused _ _ _ ih => rw [bytesOf_append, if_neg nofun, ih]

/-- A buffer can be opened with any capacity that can be had, and holds nothing then. Whatever is
done to it afterwards, and whenever memory is refused, it holds the bytes that the calls that
succeeded make of a list; its cursor is within its capacity, which is never below what it was
before; and every permitted call computes with sizes only and does one of two things. Where the
capacity that it needs can be had, it does to the bytes what it does to a list, and the buffer has
that capacity: the same as before if the room was there, and else the larger of twice that and what
is needed. Otherwise it fails for want of memory and leaves the buffer as it was. -/
theorem filled_eq_bytesOf (capacity : Nat) :
    (maxCapacity < capacity →
        withCapacity capacity = .error (.outOfMemory (min maxSize capacity))) ∧
      (capacity ≤ maxCapacity → ∃ opened, withCapacity capacity = .ok opened ∧
        opened.filled = [] ∧ opened.capacity = capacity ∧
        ∀ past buffer, History opened past buffer →
          buffer.filled = bytesOf past ∧ buffer.cursor ≤ buffer.capacity ∧
            capacity ≤ buffer.capacity ∧ buffer.capacity ≤ maxCapacity ∧
            ∀ call : Call, call.Permitted buffer →
              call.InRange buffer ∧
              (buffer.capacityFor call.additional ≤ maxCapacity →
                ∃ after, call.run buffer = .ok () after ∧
                  after.filled = call.onBytes buffer.filled ∧
                  after.capacity = buffer.capacityFor call.additional ∧
                  (buffer.capacity < after.capacity → 2 * buffer.capacity ≤ after.capacity)) ∧
              (maxCapacity < buffer.capacityFor call.additional → call.run buffer =
                .error (.outOfMemory (min maxSize (buffer.capacityFor call.additional)))
                  buffer)) := by
  refine ⟨withCapacity_of_lt, fun hcapacity => ?_⟩
  obtain ⟨opened, hopened, hempty, hfirst⟩ := withCapacity_of_le hcapacity
  refine ⟨opened, hopened, hempty, hfirst, fun past buffer hpast => ?_⟩
  have hheld : opened.capacity ≤ maxCapacity := hfirst ▸ hcapacity
  obtain ⟨hkept, hbound⟩ := hpast.capacity_le hheld
  refine ⟨hpast.filled_eq hheld hempty, buffer.cursor_le, hfirst ▸ hkept, hbound,
    fun call hpermitted => ⟨call.inRange hpermitted hbound, fun hfits => ?_,
      Call.run_of_lt hbound⟩⟩
  obtain ⟨after, hrun, hfilled, hafter⟩ := Call.run_of_le hpermitted hfits
  refine ⟨after, hrun, hfilled, hafter, fun hgrows => ?_⟩
  rw [hafter] at hgrows ⊢
  exact two_mul_capacity_le_capacityFor hgrows

/-- Calls on a buffer of two bytes: it is emptied and written again behind a slice that is longer
than its room, grows once, and is refused the memory to grow once more. -/
def reuse : List (Call × Option WireError) :=
  [(.append [222, 173], none), (.reset, none), (.fill 9 [7], none), (.append [8, 9], none),
    (.patch 1 258, none), (.reserve 5, some (.outOfMemory 8))]

theorem exists_history_reuse : ∃ buffer, History (empty.extend 2) reuse buffer := by
  have hstart : History (empty.extend 2) [] _ := .start
  have hwritten := hstart.done (show Call.Permitted _ (.append [222, 173]) by decide) rfl
  have hreset := hwritten.done (show Call.Permitted _ .reset by decide) rfl
  have hfilled := hreset.done (show Call.Permitted _ (.fill 9 [7]) by decide) rfl
  have hgrown := hfilled.done (show Call.Permitted _ (.append [8, 9]) by decide) rfl
  have hpatched := hgrown.done (show Call.Permitted _ (.patch 1 258) by decide) rfl
  exact ⟨_, hpatched.refused (show Call.Permitted _ (.reserve 5) by decide) (by decide)⟩

theorem filled_eq_bytesOf_reuse :
    ∃ opened buffer, withCapacity 2 = .ok opened ∧ History opened reuse buffer ∧
      buffer.filled = [7, 1, 2] ∧
      (Call.reserve maxSize).run buffer = .error (.outOfMemory maxSize) buffer := by
  obtain ⟨opened, hopened, -, -, hkeeps⟩ := (filled_eq_bytesOf 2).2 (by decide)
  obtain rfl : empty.extend 2 = opened := Except.ok.inj hopened
  obtain ⟨buffer, hbuffer⟩ := exists_history_reuse
  obtain ⟨hfilled, -, -, -, hcalls⟩ := hkeeps reuse buffer hbuffer
  have hneeded : maxSize ≤ buffer.capacityFor maxSize :=
    Nat.le_trans (Nat.le_add_left ..) (buffer.le_capacityFor maxSize)
  have hfails := (hcalls (.reserve maxSize) trivial).2.2 (Nat.lt_of_lt_of_le (by decide) hneeded)
  rw [Call.additional, Nat.min_eq_left hneeded] at hfails
  exact ⟨_, buffer, hopened, hbuffer, hfilled, hfails⟩

end Buffer

end MeshControl
