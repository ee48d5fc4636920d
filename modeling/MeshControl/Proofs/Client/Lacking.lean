import MeshControl.Proofs.Client.Aligning
import MeshControl.Proofs.Client.Crediting

/-!
A dialogue over a stream that loses the end of what is written. If the lost bytes were under way
behind the others, every frame would come whole, and the client would do what it does
(`Dialogue.act_lacking`). What the server writes is no longer bound to come one letter at a time: it
is enough that replies stand in the order of the requests (`Dialogue.Kept.post`).
-/

namespace MeshControl

namespace Dialogue

/-- The dialogue as it would be if bytes that were lost were under way behind the others. -/
def lacking (dialogue : Dialogue) (lost : Bytes) : Dialogue :=
  { dialogue with underWay := dialogue.underWay ++ lost }

variable {dialogue : Dialogue}

@[simp]
theorem client_lacking (dialogue : Dialogue) (lost : Bytes) :
    (dialogue.lacking lost).client = dialogue.client := rfl

@[simp]
theorem awaiting_lacking (dialogue : Dialogue) (lost : Bytes) :
    (dialogue.lacking lost).awaiting = dialogue.awaiting := rfl

/-- What the client does is the same with other bytes under way. -/
theorem act_lacking (dialogue : Dialogue) (lost : Bytes) {deed : Deed}
    (hdeed : (∃ request, deed = .ask request) ∨ deed = .settle ∨ deed = .takeEvent) :
    (dialogue.lacking lost).act deed = (dialogue.act deed).lacking lost := by
  rcases hdeed with ⟨request, rfl⟩ | rfl | rfl
  · cases hawaiting : dialogue.awaiting with
    | some other => simp only [act, awaiting_lacking, hawaiting, Option.elim_some]
    | none =>
      simp only [act, awaiting_lacking, hawaiting, Option.elim_none, ask, client_lacking]
      split <;> rfl
  · cases hawaiting : dialogue.awaiting with
    | none => simp only [act, awaiting_lacking, hawaiting, Option.elim_none]
    | some request =>
      simp only [act, awaiting_lacking, hawaiting, Option.elim_some, settle, client_lacking]
      split <;> rfl
  · cases hawaiting : dialogue.awaiting with
    | some other => simp only [act, awaiting_lacking, hawaiting, Option.elim_some]
    | none =>
      simp only [act, awaiting_lacking, hawaiting, Option.elim_none, takeEvent, client_lacking]
      split <;> rfl

/-- Letters that are written go behind the others. -/
theorem Kept.post (h : dialogue.Kept) {letters bodies : List Bytes}
    (hletters : letters = dialogue.letters ++ bodies)
    (hshort : ∀ body ∈ letters, body.length < BigEndian.span 2)
    (hin_order : ∀ used body rest reply, letters = used ++ body :: rest →
      ServerMessage.decode body = .ok (.reply reply) →
      ∃ answered, dialogue.asked[repliesIn used]? = some answered ∧
        reply.requestCode = answered.type.code) :
    Kept { dialogue with
      letters, underWay := dialogue.underWay ++ FrameStream.joined bodies } := by
  refine ⟨hshort, hin_order, h.last, fun hunbroken => ?_⟩
  obtain ⟨read, left, hread, hfaces, hcount⟩ := h.aligned hunbroken
  refine ⟨read, left ++ bodies, by rw [hletters, hread, List.append_assoc], ?_, hcount⟩
  rw [Client.Faces] at hfaces ⊢
  rw [← List.append_assoc, hfaces, FrameStream.joined_append]

/-- What a deed of the client other than a request leaves as it was. -/
theorem act_frame (dialogue : Dialogue) {deed : Deed} (hdeed : deed = .settle ∨ deed = .takeEvent) :
    let after := dialogue.act deed
    after.asked = dialogue.asked ∧ after.letters = dialogue.letters ∧
      after.underWay = dialogue.underWay ∧ dialogue.client.Reads after.client := by
  have hsame : dialogue.client.Reads dialogue.client := ⟨_, _, _, rfl⟩
  rcases hdeed with rfl | rfl
  · cases hawaiting : dialogue.awaiting with
    | none => simp only [act, hawaiting, Option.elim_none, hsame, and_self]
    | some request =>
      have hreads := dialogue.client.reads_readReply
      rw [← Client.left_settleCall request] at hreads
      simp only [act, hawaiting, Option.elim_some, settle]
      split <;> rename_i hsettle <;> rw [hsettle] at hreads <;> exact ⟨rfl, rfl, rfl, hreads⟩
  · cases hawaiting : dialogue.awaiting with
    | some request => simp only [act, hawaiting, Option.elim_some, hsame, and_self]
    | none =>
      have hreads := dialogue.client.reads_nextEvent
      simp only [act, hawaiting, Option.elim_none, takeEvent]
      split <;> rename_i htake <;> rw [htake] at hreads <;> exact ⟨rfl, rfl, rfl, hreads⟩

/-- A request that is asked is sent behind the others, or not at all. -/
theorem act_ask_frame (dialogue : Dialogue) (request : Request) :
    let after := dialogue.act (.ask request)
    after.letters = dialogue.letters ∧ after.underWay = dialogue.underWay ∧
      after.client.channel.ended = dialogue.client.channel.ended ∧
      ((after.asked = dialogue.asked ∧
          after.client.channel.sent = dialogue.client.channel.sent) ∨
        ∃ payload, request.payload? = some payload ∧ after.asked = dialogue.asked ++ [request] ∧
          after.client.channel.sent =
            dialogue.client.channel.sent ++ FrameStream.frame payload) := by
  cases hawaiting : dialogue.awaiting with
  | some other => simp only [act, hawaiting, Option.elim_some, and_self, true_or]
  | none =>
    simp only [act, hawaiting, Option.elim_none, ask]
    cases hencode : request.encode dialogue.client.writeBuffer with
    | error e writeBuffer =>
      rw [Client.send_of_encode_eq_error hencode]
      exact ⟨rfl, rfl, rfl, .inl ⟨rfl, rfl⟩⟩
    | ok bytes writeBuffer =>
      cases hheard : dialogue.client.channel.isHeard with
      | false =>
        rw [Client.send_of_unheard hencode hheard]
        exact ⟨rfl, rfl, rfl, .inl ⟨rfl, rfl⟩⟩
      | true =>
        obtain ⟨payload, hpayload, rfl⟩ := Request.payload?_of_encode_eq_ok hencode
        rw [Client.send_of_isHeard hencode hheard]
        exact ⟨rfl, rfl, rfl, .inr ⟨payload, hpayload, rfl, rfl⟩⟩

end Dialogue

end MeshControl
