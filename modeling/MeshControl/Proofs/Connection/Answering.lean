import MeshControl.Proofs.Connection.Conveying
import MeshControl.Proofs.Connection.Handling
import MeshControl.Proofs.Message.Fitting

/-!
What a message is answered with. A message that is not malformed means a request, or nothing where
no request has its type code (`Body.Means`); that determines the reply, the event behind the reply
to a subscription, and what becomes of the backend. So handling a message has two outcomes only
(`handle_cases`): a malformed message closes the connection, and any other is answered with its
letters (`Connection.Answers`), after which the connection is open exactly if its stream took all of
them whole.
-/

namespace MeshControl

namespace Body

/-- What a body means: a request, or no request where no request has its type code. -/
def Means (body : Bytes) : Option Request → Prop
  | some request => request.HasBody body
  | none => 2 ≤ body.length ∧ layout? (code body) = none

end Body

/-- The kind of events that a request subscribes to. -/
def Request.subscription? : Request → Option EventKind
  | subscribe kind => some kind
  | _ => none

/-- The subscriptions of a peer after a message of the peer. -/
def EventSet.after (subscriptions : EventSet) (received : Option Request) : EventSet :=
  (received.bind Request.subscription?).elim subscriptions subscriptions.insert

section

variable {β : Type} [Backend β]

namespace Backend

/-- The reply to a message with a type code. -/
def replyTo (backend : β) (code : UInt16) : Option Request → Reply
  | none => .response code .invalid
  | some .getTunnelName => .ofTunnelName code (tunnelName backend)
  | some request => .response code ((change? backend request).elim .noError Change.status)

/-- What a message with a type code is answered with: a reply, and for a subscription the current
value behind it. -/
def answers (backend : β) (code : UInt16) (received : Option Request) : List ServerMessage :=
  .reply (replyTo backend code received) ::
    ((received.bind Request.subscription?).map fun kind =>
      .event (currentEvent backend kind)).toList

/-- What a message makes of the backend. -/
def after (backend : β) (received : Option Request) : β :=
  (received.bind (change? backend)).elim backend Change.backend

/-- The kinds whose value a message changes. -/
def changedBy (backend : β) (received : Option Request) : EventSet :=
  (received.bind (change? backend)).elim .empty Change.changed

theorem requestCode_replyTo (backend : β) (code : UInt16) (received : Option Request) :
    (replyTo backend code received).requestCode = code := by
  unfold replyTo
  split
  · rfl
  · exact Reply.requestCode_ofTunnelName ..
  · rfl

/-- Every reply fits into a frame but one: a name of the tunnel that is too long. -/
theorem not_fits_replyTo_iff (backend : β) (code : UInt16) (received : Option Request) :
    ¬ (ServerMessage.reply (replyTo backend code received)).Fits ↔
      received = some .getTunnelName ∧
        ∃ name, tunnelName backend = .ok name ∧ 65525 < name.utf8ByteSize := by
  unfold replyTo
  split
  · exact iff_of_false (not_not_intro (ServerMessage.fits_response ..)) nofun
  · cases hname : tunnelName backend with
    | error status =>
      refine iff_of_false (not_not_intro (ServerMessage.fits_tunnelName_none ..)) ?_
      rintro ⟨-, name, hnamed, -⟩
      cases hnamed
    | ok name =>
      simp only [Reply.ofTunnelName, ServerMessage.fits_tunnelName_some_iff, Nat.not_le, true_and,
        Except.ok.injEq, exists_eq_left']
  · rename_i hother
    exact iff_of_false (not_not_intro (ServerMessage.fits_response ..)) fun h =>
      hother (Option.some.inj h.1)

theorem replyTo_of_change? {backend : β} {request : Request} {change : Change β} (code : UInt16)
    (hchange : change? backend request = some change) :
    replyTo backend code (some request) = .response code change.status := by
  cases request with
  | getTunnelName => cases hchange
  | _ => simp only [replyTo, hchange, Option.elim_some]

theorem subscription?_of_change? {backend : β} {request : Request} {change : Change β}
    (hchange : change? backend request = some change) : request.subscription? = none := by
  cases request with
  | subscribe => cases hchange
  | _ => rfl

end Backend

namespace Connection

/-- What answering a message makes of a connection: its letters are offered, its subscription is
noted, and the connection stays open if the letters were taken whole. -/
structure Answers (before : Connection) (backend : β) (received : Option Request) (whole : Bool)
    (after : Connection) : Prop where
  conveys : before.outlet.Conveys ((Backend.answers backend (Body.code before.message)
    received).map ServerMessage.payload?) whole after.outlet
  frame : ∃ position messageCode output outlet, after =
    { before with
      position, messageCode, output, outlet, isOpen := whole
      subscriptions := before.subscriptions.after received }

variable {connection after : Connection} {backend left : β} {received : Option Request}
  {flags : EventSet} {whole : Bool}

theorem Sends.answers {marked : Connection} {reply : Reply} {position : Nat} {code : UInt16}
    (h : marked.Sends (.reply reply) whole after)
    (hmarked : marked = connection.marked position code) (hopen : connection.isOpen = true)
    (hreply : reply = Backend.replyTo backend (Body.code connection.message) received)
    (hsubscription : received.bind Request.subscription? = none) :
    connection.Answers backend received whole after := by
  subst hmarked hreply
  refine ⟨?_, ?_⟩
  · rw [Backend.answers, hsubscription]
    exact h.conveys
  · obtain ⟨output, outlet, rfl⟩ := h.eq hopen
    refine ⟨position, code, output, outlet, ?_⟩
    rw [EventSet.after, hsubscription]
    rfl

theorem Answers.isOpen_eq (h : connection.Answers backend received whole after) :
    after.isOpen = whole := by
  obtain ⟨_, _, _, _, rfl⟩ := h.frame
  rfl

theorem Answers.subscriptions_eq (h : connection.Answers backend received whole after) :
    after.subscriptions = connection.subscriptions.after received := by
  obtain ⟨_, _, _, _, rfl⟩ := h.frame
  rfl

/-- Every way through a message that is not malformed answers what the message means. -/
theorem Handles.answers (h : connection.Handles backend flags after left)
    (hopen : connection.isOpen = true) (hwell : ¬ Body.Malformed connection.message) :
    ∃ received whole, Body.Means connection.message received ∧
      connection.Answers backend received whole after ∧
      flags = (if whole then Backend.changedBy backend received else .empty) ∧
      left = Backend.after backend received := by
  cases h with
  | malformed position code hmalformed => exact absurd hmalformed hwell
  | @foreign whole after hlength hlayout hreply =>
    refine ⟨none, whole, ⟨hlength, hlayout⟩, hreply.answers rfl hopen rfl rfl, ?_, rfl⟩
    cases whole <;> rfl
  | @named whole after hbody hreply =>
    refine ⟨some .getTunnelName, whole, hbody, hreply.answers rfl hopen ?_ rfl, ?_, rfl⟩
    · rw [Body.code_of_hasBody hbody]
      rfl
    · cases whole <;> rfl
  | @unanswered kind after hbody hreply =>
    refine ⟨some (.subscribe kind), false, hbody, ⟨?_, ?_⟩, rfl, rfl⟩
    · rw [Body.code_of_hasBody hbody]
      exact hreply.conveys.append_of_false _
    · obtain ⟨output, outlet, rfl⟩ := hreply.eq hopen
      exact ⟨_, _, output, outlet, rfl⟩
  | @subscribed kind whole replied after hbody hreply hevent =>
    refine ⟨some (.subscribe kind), whole, hbody, ⟨?_, ?_⟩, ?_, rfl⟩
    · rw [Body.code_of_hasBody hbody]
      exact hreply.conveys.append hevent.conveys
    · obtain ⟨_, _, rfl⟩ := hreply.eq hopen
      obtain ⟨output, outlet, rfl⟩ := hevent.eq rfl
      exact ⟨_, _, output, outlet, rfl⟩
    · cases whole <;> rfl
  | @changed request change whole after hbody hchange hreply =>
    refine ⟨some request, whole, hbody, hreply.answers rfl hopen ?_
      (Backend.subscription?_of_change? hchange), ?_, ?_⟩
    · rw [Backend.replyTo_of_change? _ hchange, Body.code_of_hasBody hbody]
    · rw [Backend.changedBy, Option.bind_some, hchange, Option.elim_some]
    · rw [Backend.after, Option.bind_some, hchange, Option.elim_some]

theorem receive_of_means (hopen : connection.isOpen = true)
    (hmeans : Body.Means connection.message received) :
    ∃ position, Exchange.receive connection =
      .ok received (connection.marked position (Body.code connection.message)) := by
  cases received with
  | none => exact ⟨_, Exchange.receive_of_layout?_eq_none hopen hmeans.1 hmeans.2⟩
  | some request =>
    rw [Body.code_of_hasBody hmeans]
    exact ⟨_, Exchange.receive_of_hasBody hopen hmeans⟩

/-- A malformed message closes an open connection and does nothing else, and any other message is
answered. -/
theorem handle_cases (connection : Connection) (backend : β) (hopen : connection.isOpen = true) :
    (Body.Malformed connection.message ∧ ∃ position code,
      connection.handle backend = (.empty, (connection.marked position code).close, backend)) ∨
    ∃ received whole after, Body.Means connection.message received ∧
      connection.Answers backend received whole after ∧
      connection.handle backend = (if whole then Backend.changedBy backend received else .empty,
        after, Backend.after backend received) := by
  by_cases hmalformed : Body.Malformed connection.message
  · exact .inl ⟨hmalformed, handle_of_malformed backend hopen hmalformed⟩
  · obtain ⟨flags, after, left, hhandle, hhandles⟩ := handles_handle connection backend hopen
    obtain ⟨received, whole, hmeans, hanswers, rfl, rfl⟩ := hhandles.answers hopen hmalformed
    exact .inr ⟨received, whole, after, hmeans, hanswers, hhandle⟩

end Connection

end

/-- A body means one thing only, because it is received as that. -/
theorem Body.Means.unique {body : Bytes} {received other : Option Request}
    (hreceived : Means body received) (hother : Means body other) : received = other := by
  let bearer : Connection :=
    { id := 0, input := ⟨body.toArray, body.length, Nat.le_of_eq List.size_toArray.symm⟩ }
  have hmessage : bearer.message = body := by simp [bearer, Connection.message, Buffer.filled]
  rw [← hmessage] at hreceived hother
  obtain ⟨_, hfirst⟩ := Connection.receive_of_means rfl hreceived
  obtain ⟨_, hsecond⟩ := Connection.receive_of_means rfl hother
  exact (EStateM.Result.ok.inj (hfirst.symm.trans hsecond)).1

end MeshControl
