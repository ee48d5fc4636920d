import MeshControl.Proofs.Client.Waiting
import MeshControl.Proofs.Server.Causes

/-!
The account of a connection with a client that sends requests only. What is offered to its stream
are the answers to the requests, each given with the backend that the request was handled with, and
between the answers to two requests the events that are pushed (`Account`). A stream that takes less
than it is offered closes the connection, so that only the last frame can be cut short
(`Connection.Accounts`). In the letters that were offered, a reply is therefore that to the request
with as many replies in front of it, and right behind the reply to a subscription stands the event
with the value that the backend had then (`Account.reply`).
-/

namespace MeshControl

/-- The beginning of joined frames is cut into some of them and a part of what is left. -/
theorem FrameStream.cut_of_append_eq {taken more : Bytes} {bodies : List Bytes}
    (hshort : ∀ body ∈ bodies, body.length < BigEndian.span 2)
    (h : taken ++ more = joined bodies) :
    ∃ left, bodies = (cut taken).bodies ++ left ∧ (cut taken).rest ++ more = joined left := by
  induction bodies generalizing taken with
  | nil =>
    obtain ⟨rfl, -⟩ := List.append_eq_nil_iff.mp h
    exact ⟨[], by rw [cut_of_none rfl]; rfl, by rw [cut_of_none rfl]; exact h⟩
  | cons body bodies ih =>
    cases hfront : front? taken with
    | none =>
      rw [cut_of_none hfront]
      exact ⟨_, rfl, h⟩
    | some found =>
      obtain ⟨first, rest⟩ := found
      obtain ⟨others, hbodies, hrest⟩ := joined_of_front? hfront h hshort
      obtain ⟨rfl, rfl⟩ := List.cons.inj hbodies
      obtain ⟨left, hleft, hmore⟩ :=
        ih (fun other hother => hshort other (List.mem_cons_of_mem _ hother)) hrest
      rw [cut_of_some hfront]
      exact ⟨left, by rw [List.cons_append, ← hleft], hmore⟩

namespace Outlet

/-- The bodies of the frames that the stream was offered, in order, each once. -/
def letters (outlet : Outlet) : List Bytes :=
  (outlet.log.reverse.filter (·.outcome ≠ .interrupted)).map (·.offered.drop Frame.lengthSize)

variable {before after : Outlet} {letters : List (Option Bytes)} {whole : Bool}

theorem letters_of_wrote {body : Bytes} {outcome : WriteOutcome}
    (h : before.Wrote (FrameStream.frame body) outcome after) :
    after.letters = before.letters ++ [body] := by
  obtain ⟨retries, hlog⟩ := h.log_eq
  have htries : (List.replicate retries (Write.mk (FrameStream.frame body) .interrupted)).filter
      (·.outcome ≠ .interrupted) = [] := by
    rw [List.filter_eq_nil_iff]
    intro write hwrite
    rw [List.eq_of_mem_replicate hwrite]
    simp
  have hsettled := h.settled
  have hbody : (FrameStream.frame body).drop Frame.lengthSize = body :=
    List.drop_left' (BigEndian.length_digits ..)
  rw [Outlet.letters, hlog, List.reverse_cons, List.reverse_append, List.reverse_replicate,
    List.filter_append, List.filter_append, htries, List.append_nil, List.map_append,
    List.filter_cons_of_pos (by simpa using hsettled), List.filter_nil, List.map_singleton, hbody,
    Outlet.letters]

/-- Of what it was offered the stream has taken all but the given bytes at the end. -/
def Lacks (outlet : Outlet) (lost : Bytes) : Prop :=
  FrameStream.joined outlet.letters = outlet.bytes ++ lost

theorem lacks_of_wrote {body : Bytes} {outcome : WriteOutcome} (hbefore : before.Lacks [])
    (h : before.Wrote (FrameStream.frame body) outcome after) : ∃ lost, after.Lacks lost := by
  rw [Lacks, List.append_nil] at hbefore
  have hbytes : after.bytes = before.bytes ++
      ((Write.taken? ⟨FrameStream.frame body, outcome⟩).toList).flatten := by
    rw [Outlet.bytes, taken_of_wrote h, List.flatten_append, Outlet.bytes]
  unfold Lacks
  rw [letters_of_wrote h, FrameStream.joined_append, hbefore, hbytes]
  cases outcome with
  | took count =>
    refine ⟨(FrameStream.frame body).drop count, ?_⟩
    simp [Write.taken?, FrameStream.joined, List.take_append_drop]
  | interrupted | failed =>
    exact ⟨FrameStream.frame body, by simp [Write.taken?, FrameStream.joined]⟩

theorem lacks_of_wrote_whole {body : Bytes} (hbefore : before.Lacks [])
    (h : before.Wrote (FrameStream.frame body) (.took (FrameStream.frame body).length) after) :
    after.Lacks [] := by
  rw [Lacks, List.append_nil] at hbefore ⊢
  rw [letters_of_wrote h, FrameStream.joined_append, hbefore, bytes_of_wrote_whole h]
  simp [FrameStream.joined]

/-- What was offered is on record later, and what was not taken of it has to be the first of what
is taken of all that is offered then. -/
theorem grows_of_lacks {lost lostLater : Bytes} (hsuffix : before.log <:+ after.log)
    (hbefore : before.Lacks lost) (hafter : after.Lacks lostLater) :
    ∃ bodies bytes, after.letters = before.letters ++ bodies ∧
      after.bytes = before.bytes ++ bytes ∧
      lost ++ FrameStream.joined bodies = bytes ++ lostLater := by
  obtain ⟨writes, hlog⟩ := hsuffix
  have hletters : after.letters = before.letters ++
      (writes.reverse.filter (·.outcome ≠ .interrupted)).map (·.offered.drop Frame.lengthSize) := by
    rw [Outlet.letters, ← hlog, List.reverse_append, List.filter_append, List.map_append,
      Outlet.letters]
  have hbytes : after.bytes = before.bytes ++ (writes.reverse.filterMap Write.taken?).flatten := by
    rw [bytes, taken_eq_append hlog.symm, List.flatten_append, bytes]
  refine ⟨_, _, hletters, hbytes, ?_⟩
  rw [Lacks, hletters, hbytes, FrameStream.joined_append, hbefore, List.append_assoc,
    List.append_assoc] at hafter
  exact List.append_cancel_left hafter

end Outlet

/-- The bodies are those of the messages up to one that was not offered to a stream, or behind one
that it did not take whole. -/
def ServerMessage.Offered (messages : List ServerMessage) (bodies : List Bytes) (whole : Bool) :
    Prop :=
  ∃ later, messages.map payload? = bodies.map some ++ later ∧ (whole = true → later = [])

theorem Outlet.Conveys.letters_eq {before after : Outlet} {letters : List (Option Bytes)}
    {whole : Bool} (h : before.Conveys letters whole after) (hbefore : before.Lacks []) :
    ∃ bodies later lost, letters = bodies.map some ++ later ∧
      after.letters = before.letters ++ bodies ∧ after.Lacks lost ∧
      (whole = true → later = [] ∧ lost = []) := by
  induction h with
  | done outlet => exact ⟨[], [], [], rfl, (List.append_nil _).symm, hbefore, fun _ => ⟨rfl, rfl⟩⟩
  | unwritable outlet later =>
    exact ⟨[], none :: later, [], rfl, (List.append_nil _).symm, hbefore, nofun⟩
  | @broken before after body outcome later hwrote =>
    obtain ⟨lost, hlost⟩ := lacks_of_wrote hbefore hwrote
    exact ⟨[body], later, lost, rfl, letters_of_wrote hwrote, hlost, nofun⟩
  | @taken before middle after body later whole hwrote _ ih =>
    obtain ⟨bodies, rest, lost, rfl, hletters, hlost, hwhole⟩ :=
      ih (lacks_of_wrote_whole hbefore hwrote)
    refine ⟨body :: bodies, rest, lost, rfl, ?_, hlost, hwhole⟩
    rw [hletters, letters_of_wrote hwrote, List.append_assoc]
    rfl

namespace ServerMessage.Offered

variable {message : ServerMessage} {messages : List ServerMessage} {bodies : List Bytes}
  {whole : Bool}

theorem nil (h : Offered [] bodies whole) : bodies = [] := by
  obtain ⟨later, hbodies, -⟩ := h
  exact List.map_eq_nil_iff.mp (List.append_eq_nil_iff.mp hbodies.symm).1

/-- The first message is not offered, or its body is the first. -/
theorem cons (h : Offered (message :: messages) bodies whole) :
    (bodies = [] ∧ whole = false) ∨ ∃ payload rest, bodies = payload :: rest ∧
      message.payload? = some payload ∧ Offered messages rest whole := by
  obtain ⟨later, hbodies, hwhole⟩ := h
  cases bodies with
  | nil =>
    refine .inl ⟨rfl, ?_⟩
    cases whole with
    | false => rfl
    | true =>
      rw [hwhole rfl] at hbodies
      cases hbodies
  | cons payload rest =>
    obtain ⟨hpayload, hrest⟩ := List.cons.inj hbodies
    exact .inr ⟨payload, rest, rfl, hpayload, later, hrest, hwhole⟩

theorem short (h : Offered messages bodies whole) :
    ∀ body ∈ bodies, body.length < BigEndian.span 2 := by
  obtain ⟨later, hbodies, -⟩ := h
  intro body hbody
  have hmem : some body ∈ messages.map payload? := by
    rw [hbodies]
    exact List.mem_append_left _ (List.mem_map_of_mem hbody)
  obtain ⟨message, -, hpayload⟩ := List.mem_map.mp hmem
  exact Frame.length_payload_lt hpayload

/-- Bodies of events are no replies. -/
theorem repliesIn_eq_zero {events : List Event} (h : Offered (events.map .event) bodies whole) :
    repliesIn bodies = 0 := by
  induction events generalizing bodies with
  | nil =>
    rw [h.nil]
    rfl
  | cons event events ih =>
    rcases h.cons with ⟨rfl, -⟩ | ⟨payload, rest, rfl, hpayload, hrest⟩
    · rfl
    · rw [← List.singleton_append, repliesIn_append, ih hrest,
        repliesIn_of_event (decode_payload hpayload)]

theorem repliesIn_of_single {event : Event} (h : Offered [.event event] bodies whole) :
    repliesIn bodies = 0 := by
  rw [← List.map_singleton] at h
  exact h.repliesIn_eq_zero

end ServerMessage.Offered

/-- A letter in two rows of letters stands in the first or in the second. -/
theorem append_eq_append_cons {first second used rest : List Bytes} {body : Bytes}
    (h : first ++ second = used ++ body :: rest) :
    (∃ between, first = used ++ body :: between ∧ rest = between ++ second) ∨
      ∃ passed, used = first ++ passed ∧ second = passed ++ body :: rest := by
  rcases List.append_eq_append_iff.mp h with ⟨passed, hused, hsecond⟩ | ⟨between, hfirst, hrest⟩
  · exact .inr ⟨passed, hused, hsecond⟩
  · cases between with
    | nil => exact .inr ⟨[], by rw [hfirst, List.append_nil, List.append_nil], hrest.symm⟩
    | cons other between =>
      obtain ⟨rfl, rfl⟩ := List.cons.inj hrest
      exact .inl ⟨between, hfirst, rfl⟩

section

variable {β : Type} [Backend β]

/-- The requests of a client that were handled, each with the backend that it was handled with, the
letters that this and other events have come to, and whether there are more to come. -/
inductive Account : List (Request × β) → List Bytes → Bool → Prop where
  | start : Account [] [] true
  | told {handled : List (Request × β)} {letters bodies : List Bytes} {whole : Bool} (event : Event)
    (hearlier : Account handled letters true)
    (hoffered : ServerMessage.Offered [.event event] bodies whole) :
    Account handled (letters ++ bodies) whole
  | answered {handled : List (Request × β)} {letters bodies : List Bytes} {whole : Bool}
    (request : Request) (backend : β) (hearlier : Account handled letters true)
    (hoffered : ServerMessage.Offered
      (Backend.answers backend request.type.code (some request)) bodies whole) :
    Account (handled ++ [(request, backend)]) (letters ++ bodies) whole
  | closed {handled : List (Request × β)} {letters : List Bytes}
    (hearlier : Account handled letters true) : Account handled letters false

theorem Reply.requestCode_normal (reply : Reply) :
    reply.normal.requestCode = reply.requestCode := by
  cases reply <;> rfl

namespace Account

variable {handled : List (Request × β)} {letters : List Bytes} {goesOn : Bool}

theorem short (h : Account handled letters goesOn) :
    ∀ body ∈ letters, body.length < BigEndian.span 2 := by
  induction h with
  | start => simp
  | told event _ hoffered ih => exact List.forall_mem_append.mpr ⟨ih, hoffered.short⟩
  | answered request backend _ hoffered ih => exact List.forall_mem_append.mpr ⟨ih, hoffered.short⟩
  | closed _ ih => exact ih

/-- Behind the reply to a request there are events only. -/
theorem offered_answers {backend : β} {request : Request} {bodies : List Bytes} {whole : Bool}
    (h : ServerMessage.Offered (Backend.answers backend request.type.code (some request)) bodies
      whole) :
    (bodies = [] ∧ whole = false) ∨ ∃ payload rest, bodies = payload :: rest ∧
      ServerMessage.decode payload =
        .ok (.reply (Backend.replyTo backend request.type.code (some request)).normal) ∧
      ServerMessage.Offered ((request.subscription?.map (Backend.currentEvent backend)).toList.map
        .event) rest whole := by
  rw [Backend.answers] at h
  rcases h.cons with hnone | ⟨payload, rest, hbodies, hpayload, hrest⟩
  · exact .inl hnone
  · refine .inr ⟨payload, rest, hbodies, ServerMessage.decode_payload hpayload, ?_⟩
    rw [Option.bind_some] at hrest
    cases request <;> exact hrest

/-- As long as there are more letters to come, there is a reply to every request. -/
theorem repliesIn_eq (h : Account handled letters true) : repliesIn letters = handled.length := by
  generalize hgoesOn : true = goesOn at h
  induction h with
  | start => rfl
  | told event _ hoffered ih =>
    rw [repliesIn_append, ih rfl, hoffered.repliesIn_of_single]
    rfl
  | answered request backend _ hoffered ih =>
    subst hgoesOn
    rcases offered_answers hoffered with ⟨-, hcut⟩ | ⟨payload, rest, rfl, hdecode, hrest⟩
    · cases hcut
    · rw [← List.singleton_append, repliesIn_append, repliesIn_append, ih rfl,
        repliesIn_of_reply hdecode, hrest.repliesIn_eq_zero, List.length_append]
      rfl
  | closed => cases hgoesOn

/-- A reply answers the request with as many replies in front of it. Behind the reply to a
subscription stands the value that the backend had, unless the letters end there. -/
theorem reply (h : Account handled letters goesOn) {used rest : List Bytes} {body : Bytes}
    {reply : Reply} (hletters : letters = used ++ body :: rest)
    (hdecode : ServerMessage.decode body = .ok (.reply reply)) :
    ∃ request backend, handled[repliesIn used]? = some (request, backend) ∧
      reply = (Backend.replyTo backend request.type.code (some request)).normal ∧
      ∀ kind, request = .subscribe kind →
        (∃ payload others, rest = payload :: others ∧
          (ServerMessage.event (Backend.currentEvent backend kind)).payload? = some payload) ∨
        (rest = [] ∧ goesOn = false) := by
  have hisReply : repliesIn [body] = 1 := repliesIn_of_reply hdecode
  induction h generalizing rest with
  | start => simp at hletters
  | @told handled letters bodies whole event _ hoffered ih =>
    rcases append_eq_append_cons hletters with ⟨between, hold, rfl⟩ | ⟨passed, -, rfl⟩
    · obtain ⟨request, backend, hindex, hreply, hbehind⟩ := ih hold
      refine ⟨request, backend, hindex, hreply, fun kind hkind => ?_⟩
      obtain ⟨payload, others, rfl, hpayload⟩ := (hbehind kind hkind).resolve_right (by simp)
      exact .inl ⟨payload, others ++ bodies, rfl, hpayload⟩
    · have hnone := hoffered.repliesIn_of_single
      rw [← List.singleton_append, repliesIn_append, repliesIn_append, hisReply] at hnone
      omega
  | @answered handled letters bodies whole request backend hearlier hoffered ih =>
    rcases append_eq_append_cons hletters with ⟨between, hold, rfl⟩ | ⟨passed, rfl, hnew⟩
    · obtain ⟨other, past, hindex, hreply, hbehind⟩ := ih hold
      obtain ⟨hbound, -⟩ := List.getElem?_eq_some_iff.mp hindex
      refine ⟨other, past, (List.getElem?_append_left hbound).trans hindex, hreply,
        fun kind hkind => ?_⟩
      obtain ⟨payload, others, rfl, hpayload⟩ := (hbehind kind hkind).resolve_right (by simp)
      exact .inl ⟨payload, others ++ bodies, rfl, hpayload⟩
    · rcases offered_answers hoffered with ⟨rfl, -⟩ | ⟨payload, others, rfl, hpayload, hothers⟩
      · simp at hnew
      · cases passed with
        | nil =>
          obtain ⟨rfl, rfl⟩ := List.cons.inj hnew
          rw [hpayload] at hdecode
          refine ⟨request, backend, ?_, ?_, ?_⟩
          · rw [List.append_nil, hearlier.repliesIn_eq, List.getElem?_concat_length]
          · cases hdecode
            rfl
          · rintro kind rfl
            rcases hothers.cons with hcut | ⟨event, left, rfl, hevent, hleft⟩
            · exact .inr hcut
            · exact .inl ⟨event, left, rfl, hevent⟩
        | cons first passed =>
          have hnone := hothers.repliesIn_eq_zero
          rw [show others = passed ++ body :: rest from (List.cons.inj hnew).2,
            ← List.singleton_append, repliesIn_append, repliesIn_append, hisReply] at hnone
          omega
  | closed _ ih =>
    obtain ⟨request, backend, hindex, hreply, hbehind⟩ := ih hletters
    exact ⟨request, backend, hindex, hreply, fun kind hkind =>
      .inl ((hbehind kind hkind).resolve_right (by simp))⟩

/-- In an account the replies stand in the order of the requests that were sent. -/
theorem in_order {asked waiting : List Request} (h : Account handled letters goesOn)
    (hasked : asked = handled.map Prod.fst ++ waiting) :
    ∀ used body rest reply, letters = used ++ body :: rest →
      ServerMessage.decode body = .ok (.reply reply) →
      ∃ answered, asked[repliesIn used]? = some answered ∧
        reply.requestCode = answered.type.code := by
  intro used body rest reply hletters hdecode
  obtain ⟨request, backend, hindex, hreply, -⟩ := h.reply hletters hdecode
  refine ⟨request, ?_, ?_⟩
  · have hfirst : (handled.map Prod.fst)[repliesIn used]? = some request := by
      rw [List.getElem?_map, hindex]
      rfl
    obtain ⟨hbound, -⟩ := List.getElem?_eq_some_iff.mp hfirst
    rw [hasked, List.getElem?_append_left hbound, hfirst]
  · rw [hreply, Reply.requestCode_normal, Backend.requestCode_replyTo]

end Account

end

end MeshControl
