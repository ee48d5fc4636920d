import MeshControl.Proofs.Connection.Handling
import MeshControl.Proofs.Message.Advancing

/-!
Reading a message field by field. On a connection the first call that fails closes it where it
stands, although the decoder may have moved on by then, and every later call finds the connection
closed (`Connection.parsed_of_decoders`). A reader without a connection may go on behind a failure,
and still no call leaves the message (`Connection.parsing_stays_inside`).
-/

namespace MeshControl

variable {α : Type} {decoder : Decoder α} {connection after : Connection}

namespace Exchange

theorem isOpen_of_read_eq_ok {value : α} (h : read decoder connection = .ok value after) :
    after.isOpen = connection.isOpen := by
  unfold read at h
  split at h
  · split at h
    · obtain ⟨-, rfl⟩ := EStateM.Result.ok.inj h
      rfl
    · cases h
  · cases h

/-- A call that fails leaves the connection closed, and otherwise as it was. -/
theorem of_read_eq_error {e : ServerError} (h : read decoder connection = .error e after) :
    after = connection.close ∧ (connection.isOpen = true → ∃ cause, e = .wire cause) := by
  unfold read at h
  split at h
  · split at h
    · cases h
    · obtain ⟨rfl, rfl⟩ := EStateM.Result.error.inj h
      exact ⟨rfl, fun _ => ⟨_, rfl⟩⟩
  · rename_i hclosed
    obtain ⟨rfl, rfl⟩ := EStateM.Result.error.inj h
    refine ⟨?_, fun hopen => absurd hopen hclosed⟩
    rw [Connection.close, ← Bool.eq_false_iff.mpr hclosed]

theorem attemptAll_read_of_closed (decoders : List (Decoder α))
    (hclosed : connection.isOpen = false) :
    attemptAll (decoders.map read) connection =
      (List.replicate decoders.length (.error .closed), connection) := by
  induction decoders with
  | nil => rfl
  | cons decoder decoders ih =>
    have hread : read decoder connection = .error .closed connection := by
      simp only [read, hclosed, Bool.false_eq_true, if_false]
    rw [List.map_cons, attemptAll_cons_of_eq_error hread, ih]
    rfl

end Exchange

namespace Connection

/-- What comes of reading on a connection with one decoder after the other. -/
inductive Parsed (connection : Connection) (decoders : List (Decoder α)) : Prop where
  /-- All of them succeed. -/
  | all (values : List α) (after : Connection)
    (hall : attemptAll (decoders.map Exchange.read) connection = (values.map .ok, after))
    (hopen : after.isOpen = connection.isOpen)
  /-- One fails that comes after some which succeed. The connection is closed in front of what that
  one would have read, and those behind it find it closed and leave it alone. -/
  | failed (front back : List (Decoder α)) (decoder : Decoder α) (values : List α)
    (here : Connection) (e : ServerError) (hdecoders : decoders = front ++ decoder :: back)
    (hfront : attemptAll (front.map Exchange.read) connection = (values.map .ok, here))
    (hfailed : Exchange.read decoder here = .error e { here with isOpen := false })
    (hcause : here.isOpen = true → ∃ cause, e = .wire cause)
    (hall : attemptAll (decoders.map Exchange.read) connection =
      (values.map .ok ++ .error e :: List.replicate back.length (.error .closed),
        { here with isOpen := false }))

theorem parsed_of_decoders (connection : Connection) (decoders : List (Decoder α)) :
    connection.Parsed decoders := by
  induction decoders generalizing connection with
  | nil => exact .all [] connection rfl rfl
  | cons decoder decoders ih =>
    cases hread : Exchange.read decoder connection with
    | ok value middle =>
      obtain ⟨values, after, hall, hopen⟩ | ⟨front, back, other, values, here, e, rfl, hfront,
        hfailed, hcause, hall⟩ := ih middle
      · refine .all (value :: values) after ?_ (hopen.trans (Exchange.isOpen_of_read_eq_ok hread))
        rw [List.map_cons, attemptAll_cons_of_eq_ok hread, hall]
        rfl
      · refine .failed (decoder :: front) back other (value :: values) here e rfl ?_ hfailed
          hcause ?_
        · rw [List.map_cons, attemptAll_cons_of_eq_ok hread, hfront]
          rfl
        · rw [List.map_cons, attemptAll_cons_of_eq_ok hread, hall]
          rfl
    | error e middle =>
      obtain ⟨rfl, hcause⟩ := Exchange.of_read_eq_error hread
      refine .failed [] decoders decoder [] connection e rfl rfl hread hcause ?_
      rw [List.map_cons, attemptAll_cons_of_eq_error hread,
        Exchange.attemptAll_read_of_closed decoders rfl]
      rfl

/-- However calls are chained that read from a message, and whichever of them fail, none moves the
position back or out of the message. What a call gives that succeeds is decided by the bytes that it
moves past, wherever these stand. Calls that all succeed give the same values in a longer message.
On a connection the first call that fails closes it without moving its position, and the later ones
find it closed. -/
theorem parsing_stays_inside (message : Bytes) (start : Nat) (calls : List Parse)
    (connection : Connection) (decoders : List (Decoder α)) :
    (∀ call : Parse,
      let before := (Parse.chain calls message start).2
      let after := (attempt call.decoder before).2
      let taken := message.extract before.position after.position
      before.position ≤ after.position ∧ after.position ≤ message.length ∧
        after.rest = message.drop after.position ∧
        ∀ value, (attempt call.decoder before).1 = .ok value → ∀ position tail,
          call.decoder ⟨position, taken ++ tail⟩ = .ok value ⟨position + taken.length, tail⟩) ∧
    (∀ values : List (Field ⊕ Event), (Parse.chain calls message start).1 = values.map .ok →
      ∀ more, (Parse.chain calls (message ++ more) start).1 = values.map .ok) ∧
    connection.Parsed decoders := by
  refine ⟨?_, fun values => Parse.chain_append, connection.parsed_of_decoders decoders⟩
  intro call before after taken
  have hbefore := Parse.reads_chain calls message start
  have hreaches := call.advances_decoder before
  have hafter := hbefore.of_reaches hreaches
  refine ⟨hreaches.position_le, hafter.position_le, hafter.rest_eq,
    fun value hvalue position tail => ?_⟩
  obtain ⟨bytes, -, hrest, hposition, hlocal⟩ :=
    call.isLocal_decoder _ _ _ (eq_ok_of_attempt hvalue)
  have htaken : taken = bytes := hbefore.extract_eq hrest hposition
  rw [htaken]
  exact hlocal position tail

/-- A blob that is cut off behind its length leaves the connection in front of that length. -/
example : (attempt (Exchange.read Decoder.blob)
    { id := 1, input := ⟨#[0, 3, 7], 3, Nat.le_refl 3⟩ }).2.position = 0 := by decide

end Connection

end MeshControl
