import MeshControl.Backend.Memory
import MeshControl.Proofs.Connection.Answering
import MeshControl.Proofs.Connection.Serving

/-!
What a peer reads while its messages are handled. On a stream that accepts every write the bytes
that a connection writes are the frames of its answers and nothing else, in the order of the
messages: one reply to each, and the current value behind the reply to a subscription. They end with
a malformed message, or with the first answer that no frame has room for (`Conversation`). The peer
is subscribed to what its messages ask for and to nothing else.
-/

namespace MeshControl

section

variable {β : Type} [Backend β]

/-- What is written in answer to bodies, what has become of the backend, and whether there is an
answer to come. -/
inductive Conversation (backend : β) : List Bytes → List ServerMessage → β → Bool → Prop where
  | start : Conversation backend [] [] backend true
  | answered {bodies : List Bytes} {written : List ServerMessage} {now : β} {body : Bytes}
    {received : Option Request} (hearlier : Conversation backend bodies written now true)
    (hmeans : Body.Means body received)
    (hfits : ∀ message ∈ Backend.answers now (Body.code body) received, message.Fits) :
    Conversation backend (bodies ++ [body])
      (written ++ Backend.answers now (Body.code body) received) (Backend.after now received) true
  | oversized {bodies : List Bytes} {written sent unsent : List ServerMessage} {now : β}
    {body : Bytes} {received : Option Request} {message : ServerMessage}
    (hearlier : Conversation backend bodies written now true) (hmeans : Body.Means body received)
    (hanswers : Backend.answers now (Body.code body) received = sent ++ message :: unsent)
    (hsent : ∀ earlier ∈ sent, earlier.Fits) (hlong : ¬ message.Fits) :
    Conversation backend (bodies ++ [body]) (written ++ sent) (Backend.after now received) false
  | malformed {bodies : List Bytes} {written : List ServerMessage} {now : β} {body : Bytes}
    (hearlier : Conversation backend bodies written now true)
    (hmalformed : Body.Malformed body) :
    Conversation backend (bodies ++ [body]) written now false

/-- Letters that were all taken are those of messages that fit. -/
theorem ServerMessage.fits_of_map_payload? {messages : List ServerMessage} {payloads : List Bytes}
    (h : messages.map payload? = payloads.map some) : ∀ message ∈ messages, message.Fits := by
  intro message hmessage
  have hmem : message.payload? ∈ payloads.map some := h ▸ List.mem_map_of_mem hmessage
  obtain ⟨payload, -, hpayload⟩ := List.mem_map.mp hmem
  exact message.exists_payload?_iff.mp ⟨payload, hpayload.symm⟩

namespace Connection

/-- How a connection stands with its peer that has handled some bodies: what it has written since
the start answers them, and the kinds that they ask for are subscribed to. -/
structure Converses (start : Connection) (backend : β) (bodies : List Bytes) (now : Connection)
    (left : β) : Prop where
  conversation : ∃ written payloads, Conversation backend bodies written left now.isOpen ∧
    written.map ServerMessage.payload? = payloads.map some ∧
    now.outlet.bytes = start.outlet.bytes ++ FrameStream.joined payloads
  subscribed : ∀ kind, now.isSubscribed kind = true ↔ start.isSubscribed kind = true ∨
    ∃ body ∈ bodies, (Request.subscribe kind).HasBody body

variable {start now next : Connection} {backend left : β} {bodies : List Bytes}
  {changed : EventSet}

theorem Converses.reads (h : start.Converses backend bodies now left) (hreads : now.Reads next) :
    start.Converses backend bodies next left := by
  refine ⟨?_, fun kind => ?_⟩
  · rw [hreads.isOpen_eq, hreads.outlet_eq]
    exact h.conversation
  · rw [isSubscribed, hreads.subscriptions_eq]
    exact h.subscribed kind

/-- A malformed message is the last, and nothing is written for it. -/
theorem Converses.malformed (h : start.Converses backend bodies now left)
    (hopen : now.isOpen = true) (hmalformed : Body.Malformed now.message) (position : Nat)
    (code : UInt16) :
    start.Converses backend (bodies ++ [now.message]) (now.marked position code).close left := by
  obtain ⟨written, payloads, hconversation, hwritten, hbytes⟩ := h.conversation
  rw [hopen] at hconversation
  refine ⟨⟨written, payloads, hconversation.malformed hmalformed, hwritten, hbytes⟩,
    fun kind => (h.subscribed kind).trans (or_congr_right ?_)⟩
  constructor
  · intro hgiven
    obtain ⟨body, hmem, hbody⟩ := hgiven
    exact ⟨body, List.mem_append_left _ hmem, hbody⟩
  · intro hgiven
    obtain ⟨body, hmem, hbody⟩ := hgiven
    obtain hearlier | hlast := List.mem_append.mp hmem
    · exact ⟨body, hearlier, hbody⟩
    · obtain rfl := List.mem_singleton.mp hlast
      exact absurd hmalformed (Body.not_malformed_of_hasBody hbody)

/-- The kinds that a message subscribes to are those of the subscription that it means. -/
theorem contains_after_iff {subscriptions : EventSet} {body : Bytes} {received : Option Request}
    (hmeans : Body.Means body received) (kind : EventKind) :
    (subscriptions.after received).contains kind = true ↔
      subscriptions.contains kind = true ∨ (Request.subscribe kind).HasBody body := by
  constructor
  · intro hcontains
    rcases received with _ | request
    · exact .inl hcontains
    · cases request with
      | subscribe added =>
        change (subscriptions.insert added).contains kind = true at hcontains
        rw [EventSet.contains_insert, Bool.or_eq_true, decide_eq_true_eq] at hcontains
        obtain rfl | hold := hcontains
        · exact .inr hmeans
        · exact .inl hold
      | _ => exact .inl hcontains
  · intro hgiven
    obtain hold | hbody := hgiven
    · rcases received with _ | request
      · exact hold
      · cases request with
        | subscribe added =>
          change (subscriptions.insert added).contains kind = true
          rw [EventSet.contains_insert, hold, Bool.or_true]
        | _ => exact hold
    · obtain rfl : received = some (.subscribe kind) := hmeans.unique hbody
      change (subscriptions.insert kind).contains kind = true
      simp

/-- A message that is answered is answered with what it means, as far as there is room. -/
theorem Converses.answers {received : Option Request} {whole : Bool}
    (h : start.Converses backend bodies now left) (hopen : now.isOpen = true)
    (hmeans : Body.Means now.message received) (hanswers : now.Answers left received whole next)
    (hwhole : next.outlet.AllWhole) :
    start.Converses backend (bodies ++ [now.message]) next (Backend.after left received) := by
  obtain ⟨written, payloads, hconversation, hwritten, hbytes⟩ := h.conversation
  rw [hopen] at hconversation
  refine ⟨?_, fun kind => ?_⟩
  · obtain ⟨letters, hletters, hall, hcut⟩ := hanswers.conveys.of_allWhole hwhole
    rw [hbytes, List.append_assoc, ← FrameStream.joined_append] at hletters
    rw [hanswers.isOpen_eq]
    cases whole with
    | true =>
      have hfits := ServerMessage.fits_of_map_payload? (hall rfl)
      refine ⟨_, _, hconversation.answered hmeans hfits, ?_, hletters⟩
      rw [List.map_append, List.map_append, hwritten, hall rfl]
    | false =>
      obtain ⟨later, hlater⟩ := hcut rfl
      obtain ⟨sent, others, hsplit, hsent, hothers⟩ := List.map_eq_append_iff.mp hlater
      obtain ⟨message, unsent, rfl, hmessage, -⟩ := List.map_eq_cons_iff.mp hothers
      refine ⟨_, _, hconversation.oversized hmeans hsplit
        (ServerMessage.fits_of_map_payload? hsent)
        (message.payload?_eq_none_iff.mp hmessage), ?_, hletters⟩
      rw [List.map_append, List.map_append, hwritten, hsent]
  · rw [isSubscribed, hanswers.subscriptions_eq, contains_after_iff hmeans]
    change now.isSubscribed kind = true ∨ _ ↔ _
    rw [h.subscribed kind, or_assoc]
    simp

end Connection

end

end MeshControl
