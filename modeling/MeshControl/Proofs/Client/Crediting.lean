import MeshControl.Proofs.Client.Waiting

/-!
Whose reply a call is given. A `Dialogue` is a client and the frames that a server writes to it; the
server answers every request that it gets with one reply, in order, and writes other frames in
between. Calls may fail, and one that fails without a reply does not take its reply along: the reply
is read by a later call. So a call that gets a reply gets the one whose turn it is, which is its own
exactly if as many replies were read in the place of events as calls have failed without one
(`Dialogue.credited_in_turn`). The type code that a reply repeats is checked, so it is at least the
reply to a request of the same type.
-/

namespace MeshControl

/-- A client in conversation with a server, between two steps of either. -/
structure Dialogue where
  client : Client := {}
  /-- The requests that were sent. -/
  asked : List Request := []
  /-- The bodies of the frames that the server has written. -/
  letters : List Bytes := []
  /-- What the server has written and what has not arrived. -/
  underWay : Bytes := []
  /-- The request of the call that goes on. -/
  awaiting : Option Request := none
  /-- The number of calls that sent their request and failed without a reply. -/
  unanswered : Nat := 0
  /-- The number of replies that were read where an event was expected. -/
  stray : Nat := 0
  /-- Whether a read has broken off inside of a frame, so that what is left of it comes to be read
  as the next one. -/
  broken : Bool := false

/-- What a client or a server does. A call sends its request (`ask`) and is then settled, and the
server may do anything between the two. -/
inductive Deed where
  | ask (request : Request)
  | write (body : Bytes)
  | bring (count : Nat)
  /-- The server writes no more. -/
  | finish
  /-- The server gives up its end. -/
  | drop
  | settle
  | takeEvent

namespace Dialogue

def ask (dialogue : Dialogue) (request : Request) : Dialogue :=
  match Client.send request dialogue.client with
  | .ok _ client =>
    { dialogue with
      client, asked := dialogue.asked ++ [request], awaiting := some request }
  | .error _ client => { dialogue with client }

/-- Whether the server may write a body: one that is a reply is the reply to the first request
without one, and repeats its type code. -/
def mayWrite (dialogue : Dialogue) (body : Bytes) : Bool :=
  decide (body.length ≤ maxPayload) &&
    match ServerMessage.decode body with
    | .ok (.reply reply) =>
      dialogue.asked[repliesIn dialogue.letters]?.any (reply.requestCode == ·.type.code)
    | _ => true

def write (dialogue : Dialogue) (body : Bytes) : Dialogue :=
  if dialogue.mayWrite body then
    { dialogue with
      letters := dialogue.letters ++ [body]
      underWay := dialogue.underWay ++ FrameStream.frame body }
  else dialogue

/-- Lets bytes arrive, if the stream has not ended. -/
def bring (dialogue : Dialogue) (count : Nat) : Dialogue :=
  if dialogue.client.channel.ended then dialogue
  else
    { dialogue with
      client := { dialogue.client with
        channel := dialogue.client.channel.deliver (dialogue.underWay.take count) }
      underWay := dialogue.underWay.drop count }

/-- Ends the call for a request with what has arrived. -/
def settle (dialogue : Dialogue) (request : Request) : Dialogue :=
  match Client.settleCall request dialogue.client with
  | .ok _ client => { dialogue with client, awaiting := none }
  | .error e client =>
    { dialogue with
      client
      awaiting := none
      unanswered := dialogue.unanswered + if e.isMiss then 1 else 0
      broken := dialogue.broken || dialogue.client.breaksOff e }

def takeEvent (dialogue : Dialogue) : Dialogue :=
  match Client.nextEvent dialogue.client with
  | .ok _ client => { dialogue with client }
  | .error e client =>
    { dialogue with
      client
      stray := dialogue.stray + if e.isMiss then 0 else 1
      broken := dialogue.broken || dialogue.client.breaksOff e }

/-- The dialogue after a deed. While a call goes on, the client does nothing else. -/
def act (dialogue : Dialogue) : Deed → Dialogue
  | .ask request => dialogue.awaiting.elim (dialogue.ask request) fun _ => dialogue
  | .write body => dialogue.write body
  | .bring count => dialogue.bring count
  | .finish =>
    { dialogue with
      client := { dialogue.client with channel := dialogue.client.channel.finish } }
  | .drop =>
    { dialogue with
      client := { dialogue.client with channel := dialogue.client.channel.drop } }
  | .settle => dialogue.awaiting.elim dialogue dialogue.settle
  | .takeEvent => dialogue.awaiting.elim dialogue.takeEvent fun _ => dialogue

/-- What a client that has just connected comes to with its server. -/
def run (deeds : List Deed) : Dialogue := deeds.foldl act {}

/-- A call that is settled as soon as its request is sent does what `Client.perform` does. -/
theorem client_settle_ask {dialogue : Dialogue} (hidle : dialogue.awaiting = none)
    {request : Request} {result : CallResult} {after : Client}
    (hperform : Client.perform request dialogue.client = Client.give result after) :
    ((dialogue.act (.ask request)).act .settle).client = after := by
  rw [Client.perform_eq] at hperform
  have hask : dialogue.act (.ask request) = dialogue.ask request := by
    rw [act, hidle, Option.elim_none]
  rcases Client.send_cases request dialogue.client with
    ⟨sent, hsend, -⟩ | ⟨e, unsent, hsend, -⟩
  · rw [bind_of_eq_ok hsend] at hperform
    rw [hask, ask, hsend]
    simp only [act, Option.elim_some, settle, hperform]
    cases result <;> rfl
  · rw [bind_of_eq_error hsend] at hperform
    rw [hask, ask, hsend]
    simp only [act, hidle, Option.elim_none]
    cases result <;> cases hperform
    rfl

/-- The number of calls that go on, which is one at most. -/
def ongoing (dialogue : Dialogue) : Nat := dialogue.awaiting.elim 0 fun _ => 1

/-- The invariant of a dialogue. Replies are written in the order of the requests, and while no read
has broken off inside of a frame, the client has whole frames before it, and every request is either
under way or has had a reply or a failed call. -/
structure Kept (dialogue : Dialogue) : Prop where
  short : ∀ body ∈ dialogue.letters, body.length < BigEndian.span 2
  in_order : ∀ used body rest reply, dialogue.letters = used ++ body :: rest →
    ServerMessage.decode body = .ok (.reply reply) →
    ∃ answered, dialogue.asked[repliesIn used]? = some answered ∧
      reply.requestCode = answered.type.code
  last : ∀ request, dialogue.awaiting = some request →
    ∃ earlier, dialogue.asked = earlier ++ [request]
  aligned : dialogue.broken = false → ∃ read left, dialogue.letters = read ++ left ∧
    dialogue.client.Faces dialogue.underWay left ∧
    repliesIn read + dialogue.unanswered + dialogue.ongoing =
      dialogue.asked.length + dialogue.stray

variable {dialogue : Dialogue}

theorem Kept.start : Kept {} where
  short := by simp
  in_order := by
    intro used body rest reply hletters
    cases used <;> cases hletters
  last := by simp
  aligned _ := ⟨[], [], rfl, rfl, rfl⟩

/-- A deed that only moves bytes on keeps the invariant. -/
theorem Kept.of_faces (h : dialogue.Kept) {client : Client} {underWay : Bytes}
    (hmoved : ∀ left, dialogue.client.Faces dialogue.underWay left → client.Faces underWay left) :
    Kept { dialogue with client, underWay } := by
  refine ⟨h.short, h.in_order, h.last, fun hunbroken => ?_⟩
  obtain ⟨read, left, hletters, hfaces, hcount⟩ := h.aligned hunbroken
  exact ⟨read, left, hletters, hmoved left hfaces, hcount⟩

theorem Kept.ask (h : dialogue.Kept) (hidle : dialogue.awaiting = none) (request : Request) :
    (dialogue.ask request).Kept := by
  rcases Client.send_cases request dialogue.client with
    ⟨after, hsend, hincoming⟩ | ⟨e, after, hsend, hincoming⟩
  · rw [Dialogue.ask, hsend]
    refine ⟨h.short, ?_, ?_, fun hunbroken => ?_⟩
    · intro used body rest reply hletters hdecode
      obtain ⟨answered, hanswered, hcode⟩ := h.in_order used body rest reply hletters hdecode
      obtain ⟨hindex, -⟩ := List.getElem?_eq_some_iff.mp hanswered
      exact ⟨answered, (List.getElem?_append_left hindex).trans hanswered, hcode⟩
    · intro other hother
      obtain rfl := Option.some.inj hother
      exact ⟨dialogue.asked, rfl⟩
    · obtain ⟨read, left, hletters, hfaces, hcount⟩ := h.aligned hunbroken
      refine ⟨read, left, hletters, hfaces.of_incoming_eq hincoming, ?_⟩
      simp only [ongoing, hidle, Option.elim_none, Option.elim_some, List.length_append,
        List.length_cons, List.length_nil] at hcount ⊢
      omega
  · rw [Dialogue.ask, hsend]
    exact h.of_faces fun _ hfaces => hfaces.of_incoming_eq hincoming

/-- A reply that may be written is the reply to a request that has none yet. -/
theorem exists_answered_of_mayWrite {body : Bytes} {reply : Reply}
    (hmay : dialogue.mayWrite body = true)
    (hdecode : ServerMessage.decode body = .ok (.reply reply)) :
    ∃ answered, dialogue.asked[repliesIn dialogue.letters]? = some answered ∧
      reply.requestCode = answered.type.code := by
  simp only [mayWrite, hdecode, Bool.and_eq_true, Option.any_eq_true] at hmay
  obtain ⟨-, answered, hanswered, hcode⟩ := hmay
  exact ⟨answered, hanswered, beq_iff_eq.mp hcode⟩

theorem Kept.write (h : dialogue.Kept) (body : Bytes) : (dialogue.write body).Kept := by
  rw [Dialogue.write]
  split
  · rename_i hmay
    have hlength : body.length ≤ maxPayload := by
      simp only [mayWrite, Bool.and_eq_true, decide_eq_true_eq] at hmay
      exact hmay.1
    refine ⟨BigEndian.lt_span_two_append h.short hlength, ?_, h.last, fun hunbroken => ?_⟩
    · intro used other rest reply hletters hdecode
      -- The letter is the new one, or it stood before the new one already.
      rcases List.eq_nil_or_concat rest with rfl | ⟨earlier, last, rfl⟩
      · obtain ⟨rfl, hbody⟩ := List.append_inj' hletters rfl
        obtain rfl := (List.cons.inj hbody).1
        exact exists_answered_of_mayWrite hmay hdecode
      · rw [List.concat_eq_append, ← List.cons_append, ← List.append_assoc] at hletters
        obtain ⟨hold, -⟩ := List.append_inj' hletters rfl
        exact h.in_order used other earlier reply hold hdecode
    · obtain ⟨read, left, hletters, hfaces, hcount⟩ := h.aligned hunbroken
      exact ⟨read, left ++ [body], by rw [hletters, List.append_assoc], hfaces.write body, hcount⟩
  · exact h

theorem Kept.bring (h : dialogue.Kept) (count : Nat) : (dialogue.bring count).Kept := by
  rw [Dialogue.bring]
  split
  · exact h
  · rename_i hgoes
    exact h.of_faces fun left hfaces => hfaces.deliver hgoes count

/-- Settling a call changes the client, ends the call and counts what it was worth. -/
theorem settle_frame (dialogue : Dialogue) (request : Request) :
    ∃ client unanswered broken, dialogue.settle request =
        { dialogue with client, awaiting := none, unanswered, broken } ∧
      (broken = false → dialogue.broken = false) := by
  rw [settle]
  split
  · exact ⟨_, _, _, rfl, id⟩
  · exact ⟨_, _, _, rfl, fun hbroken => (Bool.or_eq_false_iff.mp hbroken).1⟩

theorem takeEvent_frame (dialogue : Dialogue) :
    ∃ client stray broken, dialogue.takeEvent = { dialogue with client, stray, broken } ∧
      (broken = false → dialogue.broken = false) := by
  rw [takeEvent]
  split
  · exact ⟨_, _, _, rfl, id⟩
  · exact ⟨_, _, _, rfl, fun hbroken => (Bool.or_eq_false_iff.mp hbroken).1⟩

/-- The letters that the client has before it are short enough for their length words. -/
theorem Kept.short_left (h : dialogue.Kept) {read left : List Bytes}
    (hletters : dialogue.letters = read ++ left) :
    ∀ body ∈ left, body.length < BigEndian.span 2 := by
  intro body hbody
  apply h.short
  rw [hletters]
  exact List.mem_append_right _ hbody

theorem Kept.settle (h : dialogue.Kept) {request : Request}
    (hawaiting : dialogue.awaiting = some request) : (dialogue.settle request).Kept := by
  obtain ⟨client, unanswered, broken, hframe, hstill⟩ := dialogue.settle_frame request
  refine ⟨?_, ?_, ?_, fun hunbroken => ?_⟩
  · rw [hframe]
    exact h.short
  · rw [hframe]
    exact h.in_order
  · rw [hframe]
    intro other hother
    cases hother
  · have hbefore : dialogue.broken = false := by
      rw [hframe] at hunbroken
      exact hstill hunbroken
    obtain ⟨read, left, hletters, hfaces, hcount⟩ := h.aligned hbefore
    simp only [ongoing, hawaiting, Option.elim_some] at hcount
    rcases Client.readReply_cases (h.short_left hletters) hfaces with
      ⟨skipped, body, rest, reply, after, rfl, hskipped, hdecode, hread, hrest⟩ |
        ⟨passed, rest, e, after, rfl, hpassed, hread, hmiss, hkept⟩
    -- The call takes along the letters that it has passed over, and its reply if it comes to one.
    · have hsettle : Client.settleCall request dialogue.client = _ :=
        Client.settleCall_of_readReply hread
      have hread : dialogue.letters = read ++ (skipped ++ [body]) ++ rest := by
        rw [hletters]
        simp only [List.append_assoc, List.singleton_append]
      have hcounted : repliesIn (read ++ (skipped ++ [body])) + dialogue.unanswered + 0 =
          dialogue.asked.length + dialogue.stray := by
        rw [repliesIn_append, repliesIn_append, hskipped, repliesIn_of_reply hdecode]
        omega
      cases hjudge : Client.judge request reply with
      | ok value =>
        rw [hjudge] at hsettle
        rw [Dialogue.settle, hsettle]
        exact ⟨_, rest, hread, hrest, hcounted⟩
      | error e =>
        rw [hjudge] at hsettle
        rw [Dialogue.settle, hsettle]
        simp only [Client.give, Client.isMiss_of_judge hjudge]
        exact ⟨_, rest, hread, hrest, hcounted⟩
    · have hsettle : Client.settleCall request dialogue.client = _ :=
        Client.settleCall_of_error hread
      have hread : dialogue.letters = read ++ passed ++ rest := by
        rw [hletters, List.append_assoc]
      rw [Dialogue.settle, hsettle] at hunbroken ⊢
      obtain ⟨-, hwhole⟩ := Bool.or_eq_false_iff.mp hunbroken
      refine ⟨_, rest, hread, hkept hwhole, ?_⟩
      simp only [hmiss, if_true, ongoing, Option.elim_none]
      rw [repliesIn_append, hpassed]
      omega

theorem Kept.takeEvent (h : dialogue.Kept) : dialogue.takeEvent.Kept := by
  obtain ⟨client, stray, broken, hframe, hstill⟩ := dialogue.takeEvent_frame
  refine ⟨?_, ?_, ?_, fun hunbroken => ?_⟩
  · rw [hframe]
    exact h.short
  · rw [hframe]
    exact h.in_order
  · rw [hframe]
    exact h.last
  · have hbefore : dialogue.broken = false := by
      rw [hframe] at hunbroken
      exact hstill hunbroken
    obtain ⟨read, left, hletters, hfaces, hcount⟩ := h.aligned hbefore
    obtain ⟨passed, rest, rfl, htaken⟩ := Client.nextEvent_cases (h.short_left hletters) hfaces
    have hread : dialogue.letters = read ++ passed ++ rest := by
      rw [hletters, List.append_assoc]
    rcases htaken with ⟨event, after, htake, hpassed, hrest⟩ | ⟨e, after, htake, hpassed, hkept⟩
    · rw [Dialogue.takeEvent, htake]
      refine ⟨_, rest, hread, hrest, ?_⟩
      rw [repliesIn_append, hpassed]
      exact hcount
    · rw [Dialogue.takeEvent, htake] at hunbroken ⊢
      obtain ⟨-, hwhole⟩ := Bool.or_eq_false_iff.mp hunbroken
      refine ⟨_, rest, hread, hkept hwhole, ?_⟩
      rw [repliesIn_append, hpassed]
      simp only [ongoing] at hcount ⊢
      omega

/-- Every deed keeps the invariant. -/
theorem Kept.act (h : dialogue.Kept) (deed : Deed) : (dialogue.act deed).Kept := by
  cases deed with
  | ask request =>
    cases hawaiting : dialogue.awaiting with
    | none =>
      rw [Dialogue.act, hawaiting]
      exact h.ask hawaiting request
    | some other =>
      rw [Dialogue.act, hawaiting]
      exact h
  | write body => exact h.write body
  | bring count => exact h.bring count
  | finish | drop => exact h.of_faces fun _ hfaces => hfaces
  | settle =>
    cases hawaiting : dialogue.awaiting with
    | none =>
      rw [Dialogue.act, hawaiting]
      exact h
    | some request =>
      rw [Dialogue.act, hawaiting]
      exact h.settle hawaiting
  | takeEvent =>
    cases hawaiting : dialogue.awaiting with
    | none =>
      rw [Dialogue.act, hawaiting]
      exact h.takeEvent
    | some request =>
      rw [Dialogue.act, hawaiting]
      exact h

theorem kept_run (deeds : List Deed) : (run deeds).Kept :=
  List.foldlRecOn deeds act Kept.start fun _ h deed _ => h.act deed

/-- A call that gets a verdict gets it from the reply whose turn it is: the reply to the request
behind all those whose replies have been read. While no read has broken off inside of a frame, that
is the request of the call itself exactly if as many replies have been read in the place of events
as calls have failed without one; and it is a request of the same type in any case. -/
theorem credited_in_turn (deeds : List Deed) {request : Request} {result : CallResult}
    {after : Client} (hunbroken : (run deeds).broken = false)
    (hawaiting : (run deeds).awaiting = some request)
    (hsettle : Client.settleCall request (run deeds).client = Client.give result after)
    (hverdict : (∃ value, result = .ok value) ∨ ∃ status, result = .error (.server status)) :
    ∃ earlier used body rest reply answered,
      (run deeds).asked = earlier ++ [request] ∧
      (run deeds).letters = used ++ body :: rest ∧
      after.channel.incoming ++ (run deeds).underWay = FrameStream.joined rest ∧
      ServerMessage.decode body = .ok (.reply reply) ∧
      result = Client.judge request reply ∧
      (run deeds).asked[repliesIn used]? = some answered ∧
      reply.requestCode = answered.type.code ∧ answered.type = request.type ∧
      repliesIn used + (run deeds).unanswered = earlier.length + (run deeds).stray ∧
      (repliesIn used = earlier.length ↔ (run deeds).unanswered = (run deeds).stray) := by
  have hkept := kept_run deeds
  obtain ⟨earlier, hasked⟩ := hkept.last request hawaiting
  obtain ⟨read, left, hletters, hfaces, hcount⟩ := hkept.aligned hunbroken
  simp only [ongoing, hawaiting, Option.elim_some, hasked, List.length_append, List.length_cons,
    List.length_nil] at hcount
  rcases Client.readReply_cases (hkept.short_left hletters) hfaces with
    ⟨skipped, body, rest, reply, ended, rfl, hskipped, hdecode, hread, hrest⟩ |
      ⟨passed, rest, e, ended, rfl, hpassed, hread, hmiss, -⟩
  · rw [Client.settleCall_of_readReply hread] at hsettle
    obtain ⟨rfl, rfl⟩ := Client.give_inj hsettle
    have hused : (run deeds).letters = (read ++ skipped) ++ body :: rest := by
      rw [hletters, List.append_assoc]
    obtain ⟨answered, hanswered, hcode⟩ :=
      hkept.in_order (read ++ skipped) body rest reply hused hdecode
    have hown := Client.requestCode_of_judge hverdict
    have htype : answered.type = request.type := MessageType.code_injective (hcode.symm.trans hown)
    have hturn : repliesIn (read ++ skipped) + (run deeds).unanswered =
        earlier.length + (run deeds).stray := by
      rw [repliesIn_append, hskipped]
      omega
    refine ⟨earlier, read ++ skipped, body, rest, reply, answered, hasked, hused, hrest, hdecode,
      rfl, hanswered, hcode, htype, hturn, ?_⟩
    omega
  · rw [Client.settleCall_of_error hread] at hsettle
    obtain ⟨rfl, -⟩ : result = .error e ∧ after = ended := Client.give_inj hsettle.symm
    rcases hverdict with ⟨value, hvalue⟩ | ⟨status, hstatus⟩
    · cases hvalue
    · cases hstatus
      cases hmiss

/-- The reply to a call that has timed out comes just before the reply to the next one. -/
def lateReply : List Deed :=
  [.ask (.removeService 1 [7]), .settle, .ask (.removeService 1 [8]),
    .write [0, 1, 0, 3, 0, 0, 0, 0], .write [0, 1, 0, 3, 255, 254, 255, 236], .bring 20]

theorem credited_in_turn_lateReply :
    (run lateReply).broken = false ∧ (run lateReply).unanswered = 1 ∧
      (run lateReply).awaiting = some (.removeService 1 [8]) ∧
      ∃ after used body rest answered,
        Client.settleCall (.removeService 1 [8]) (run lateReply).client =
          Client.give (.ok none) after ∧
        (run lateReply).letters = used ++ body :: rest ∧
        (run lateReply).asked[repliesIn used]? = some answered ∧
        answered = .removeService 1 [7] := by
  have hunbroken : (run lateReply).broken = false := by decide +kernel
  have hunanswered : (run lateReply).unanswered = 1 := by decide +kernel
  have hstray : (run lateReply).stray = 0 := by decide +kernel
  have hawaiting : (run lateReply).awaiting = some (.removeService 1 [8]) := by decide +kernel
  have hasked : (run lateReply).asked = [.removeService 1 [7], .removeService 1 [8]] := by
    decide +kernel
  have hvalue : (match Client.settleCall (.removeService 1 [8]) (run lateReply).client with
      | .ok value _ => some value
      | .error _ _ => none) = some none := by decide +kernel
  obtain ⟨after, hsettle⟩ : ∃ after,
      Client.settleCall (.removeService 1 [8]) (run lateReply).client =
        Client.give (.ok none) after := by
    cases hresult : Client.settleCall (.removeService 1 [8]) (run lateReply).client with
    | ok value after =>
      rw [hresult] at hvalue
      obtain rfl := Option.some.inj hvalue
      exact ⟨after, rfl⟩
    | error e after =>
      rw [hresult] at hvalue
      cases hvalue
  obtain ⟨earlier, used, body, rest, reply, answered, hearlier, hletters, -, -, -, hanswered, -, -,
    hturn, -⟩ := credited_in_turn lateReply hunbroken hawaiting hsettle (.inl ⟨none, rfl⟩)
  have hfirst : earlier.length = 1 := by
    have hlength := congrArg List.length (hasked.symm.trans hearlier)
    simp only [List.length_append, List.length_cons, List.length_nil] at hlength
    omega
  have hused : repliesIn used = 0 := by omega
  refine ⟨hunbroken, hunanswered, hawaiting, after, used, body, rest, answered, hsettle, hletters,
    hanswered, ?_⟩
  rw [hused, hasked] at hanswered
  exact (Option.some.inj hanswered).symm

end Dialogue

end MeshControl
