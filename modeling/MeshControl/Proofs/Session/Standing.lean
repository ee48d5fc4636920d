import MeshControl.Proofs.Client.Lacking
import MeshControl.Proofs.Session.Basic

/-!
The invariant of a session. Of the requests that the client has sent, the first ones were handled
and are accounted for, each with the backend at that moment, and the others are on their way. What
was offered to the client's stream and is lost, because the stream did not take it, is the end of
what was offered; if it were under way behind the rest, every frame would come whole
(`Session.Standing`). Every action keeps this (`Standing.act`), and what happens behind the client's
back brings more of what the server writes and nothing else (`Session.Brings`).
-/

namespace MeshControl

namespace Session

section

variable {β : Type}

/-- The bytes that the client has before it, as far as they are not lost. -/
def coming (session : Session β) : Bytes :=
  session.dialogue.client.channel.incoming ++ session.dialogue.underWay

/-- What happens behind the back of a client. More letters may be written to it, but only while its
connection is open, and its queue stays as it is. -/
structure Brings (early late : Session β) (lost lostLater : Bytes) : Prop where
  pending_eq : late.dialogue.client.pending = early.dialogue.client.pending
  arrives : early.coming <+: late.coming
  grows : ∃ bodies, late.dialogue.letters = early.dialogue.letters ++ bodies ∧
    late.coming ++ lostLater = early.coming ++ lost ++ FrameStream.joined bodies ∧
    (early.isLive = false → bodies = [])
  isLive : late.isLive = true → early.isLive = true

variable {early middle late : Session β} {lost lostThen lostLater : Bytes}

theorem Brings.of_eq (hpending : late.dialogue.client.pending = early.dialogue.client.pending)
    (hletters : late.dialogue.letters = early.dialogue.letters)
    (hcoming : late.coming = early.coming) (hlive : late.isLive = true → early.isLive = true) :
    early.Brings late lost lost := by
  refine ⟨hpending, hcoming ▸ List.prefix_refl _, ⟨[], ?_, ?_, fun _ => rfl⟩, hlive⟩
  · rw [hletters, List.append_nil]
  · rw [hcoming, FrameStream.joined, List.append_nil]

theorem Brings.refl (session : Session β) (lost : Bytes) : session.Brings session lost lost :=
  .of_eq rfl rfl rfl fun h => h

theorem Brings.trans (hfirst : early.Brings middle lost lostThen)
    (hsecond : middle.Brings late lostThen lostLater) : early.Brings late lost lostLater := by
  refine ⟨hsecond.pending_eq.trans hfirst.pending_eq, hfirst.arrives.trans hsecond.arrives, ?_,
    fun h => hfirst.isLive (hsecond.isLive h)⟩
  obtain ⟨bodies, hletters, hcoming, hsilent⟩ := hfirst.grows
  obtain ⟨more, hmore, hlater, hstill⟩ := hsecond.grows
  refine ⟨bodies ++ more, by rw [hmore, hletters, List.append_assoc], ?_, fun hclosed => ?_⟩
  · rw [hlater, hcoming, FrameStream.joined_append, List.append_assoc]
  · have hmiddle : middle.isLive = false := by
      rw [Bool.eq_false_iff]
      intro hopen
      rw [hfirst.isLive hopen] at hclosed
      cases hclosed
    rw [hsilent hclosed, hstill hmiddle, List.append_nil]

end

variable {β : Type} [Backend β]

/-- How the client's connection stands, as long as it is not collected. -/
structure Holds (session : Session β) (connection : Connection) (waiting : List Request)
    (lost : Bytes) : Prop where
  letters_eq : session.dialogue.letters = connection.outlet.letters
  written_eq : session.written = connection.outlet.bytes.length
  lacks : connection.outlet.Lacks lost
  listens : connection.isOpen = true →
    connection.Listens session.dialogue.client.channel.sent waiting

/-- The invariant of a session. -/
structure Standing (session : Session β) (handled : List (Request × β)) (waiting : List Request)
    (lost : Bytes) : Prop where
  sound : session.server.registry.IsSound
  issued : session.id < session.server.registry.nextId
  kept : (session.dialogue.lacking lost).Kept
  account : Account handled session.dialogue.letters session.isLive
  whole : session.isLive = true → lost = []
  asked_eq : session.dialogue.asked = handled.map Prod.fst ++ waiting
  consulted_eq : session.consulted = handled.map Prod.snd
  holds : ∀ connection, session.connection? = some connection →
    session.Holds connection waiting lost
  ended : session.dialogue.client.channel.ended = true →
    session.isLive = false ∧ session.dialogue.underWay = []

variable {session : Session β} {handled : List (Request × β)} {waiting : List Request}
  {lost : Bytes}

theorem Standing.start {server accepted : Server β} {upcoming : List Acceptance} {now id : Nat}
    (hruns : server.Runs)
    (haccept : server.accept {} { upcoming } now = (.accepted id, accepted)) :
    Standing { server := accepted, id } [] [] [] := by
  have hsound : accepted.registry.IsSound := by
    have hturns := server.turns_accept {} { upcoming } now
    rw [haccept] at hturns
    exact hruns.isSound.turns hturns
  rcases server.accept_cases {} { upcoming } now with ⟨input, hfilled, hnew⟩ | ⟨-, hnot, -⟩
  · rw [haccept] at hnew
    obtain ⟨hid, rfl⟩ := Prod.mk.inj hnew
    obtain rfl := Admission.accepted.inj hid
    have hcursor : input.cursor = 0 := by
      rw [← Buffer.length_filled, hfilled, List.length_nil]
    have hfound := hsound.isOrdered.get?_eq (List.mem_append_right server.registry.connections
      (List.mem_singleton_self
        ({ id := server.registry.nextId, outlet := { upcoming }, input, lastActivity := now } :
          Connection)))
    refine ⟨hsound, Nat.lt_succ_self _, .start, ?_, fun _ => rfl, rfl, rfl, ?_, nofun⟩
    · rw [isLive, connection?, hfound]
      exact .start
    · intro connection hconnection
      obtain rfl := Option.some.inj (hfound.symm.trans hconnection)
      refine ⟨rfl, rfl, rfl, fun _ => ⟨?_, ?_, [], rfl, ?_⟩⟩
      · simp [Inlet.IsSteady]
      · simp [hcursor, Phase.expected]
      · simp [Connection.collected, Phase.announced, hfilled, Inlet.pending, FrameStream.joined]
  · rw [haccept] at hnot
    exact absurd rfl (hnot id)

/-- What happens to the server and to the client's channel, but brings nothing to the client. -/
theorem Standing.replace (h : session.Standing handled waiting lost) {server : Server β}
    {channel : Channel} (hsound : server.registry.IsSound)
    (hissued : session.id < server.registry.nextId)
    (hincoming : channel.incoming = session.dialogue.client.channel.incoming)
    (hlive : isLive { session with server } = session.isLive)
    (hholds : ∀ connection, server.registry.get? session.id = some connection →
      (setChannel { session with server } channel).Holds connection waiting lost)
    (hended : channel.ended = true → session.isLive = false ∧ session.dialogue.underWay = []) :
    (setChannel { session with server } channel).Standing handled waiting lost ∧
      session.Brings (setChannel { session with server } channel) lost lost := by
  have hsame : (setChannel { session with server } channel).isLive = session.isLive := hlive
  refine ⟨⟨hsound, hissued, h.kept.of_faces fun _ hfaces => hfaces.of_incoming_eq hincoming, ?_, ?_,
    h.asked_eq, h.consulted_eq, hholds, fun hstopped => ?_⟩, .of_eq rfl rfl ?_ fun hopen =>
    hsame ▸ hopen⟩
  · rw [hsame]
    exact h.account
  · rw [hsame]
    exact h.whole
  · rw [hsame]
    exact hended hstopped
  · exact congrArg (· ++ session.dialogue.underWay) hincoming

/-- The client of a connection that is gone has nothing more to come. -/
theorem Standing.of_gone (h : session.Standing handled waiting lost)
    (hdead : session.isLive = false) {server : Server β} (hsound : server.registry.IsSound)
    (hissued : session.id < server.registry.nextId)
    (hnone : server.registry.get? session.id = none) :
    Standing { session with server } handled waiting lost ∧
      session.Brings { session with server } lost lost := by
  have hgone : isLive { session with server } = false := isLive_of_eq_none hnone
  refine h.replace hsound hissued rfl (hgone.trans hdead.symm) ?_ h.ended
  intro connection hconnection
  cases hnone.symm.trans hconnection

/-- What lasts of the client's connection goes on with the session. -/
theorem Standing.of_lasts (h : session.Standing handled waiting lost)
    {connection after : Connection} (hbefore : session.connection? = some connection)
    {server : Server β} (hsound : server.registry.IsSound)
    (hissued : session.id < server.registry.nextId)
    (hafter : server.registry.get? session.id = some after) (hlasts : connection.Lasts after)
    {consulted : List β} {grown : List (Request × β)} {behind : List Request} {lostLater : Bytes}
    (haccounts : after.Accounts grown lostLater)
    (hlistens : after.isOpen = true → after.Listens session.dialogue.client.channel.sent behind)
    (hasked : session.dialogue.asked = grown.map Prod.fst ++ behind)
    (hconsulted : session.consulted ++ consulted = grown.map Prod.snd) :
    (convey { session with server, consulted := session.consulted ++ consulted }).Standing grown
        behind lostLater ∧
      session.Brings (convey { session with server, consulted := session.consulted ++ consulted })
        lost lostLater := by
  obtain ⟨hletters, hwritten, hlacks, -⟩ := h.holds connection hbefore
  obtain ⟨bodies, bytes, hmore, hbytes, hjoined⟩ :=
    Outlet.grows_of_lacks hlasts.log_suffix hlacks haccounts.lacks
  have hlive := isLive_of_eq_some hbefore
  have hsilent (hclosed : session.isLive = false) : bodies = [] ∧ bytes = [] := by
    have hlog := hlasts.silent (hlive.symm.trans hclosed)
    rw [Outlet.letters, hlog, ← Outlet.letters, List.self_eq_append_right] at hmore
    rw [Outlet.bytes, Outlet.taken, hlog, ← Outlet.taken, ← Outlet.bytes, List.self_eq_append_right]
      at hbytes
    exact ⟨hmore, hbytes⟩
  have hdrop : after.outlet.bytes.drop session.written = bytes := by
    rw [hbytes, hwritten, List.drop_left]
  have hgrown : after.outlet.letters = session.dialogue.letters ++ bodies := by
    rw [hmore, hletters]
  have hunderWay : session.dialogue.underWay ++ bytes ++ lostLater =
      session.dialogue.underWay ++ lost ++ FrameStream.joined bodies := by
    rw [List.append_assoc, ← hjoined, List.append_assoc]
  have hconnection : connection?
      { session with server, consulted := session.consulted ++ consulted } = some after := hafter
  rw [convey_of_eq_some hconnection, hdrop]
  generalize hnext : Session.mk .. = next
  have hopen : next.isLive = after.isOpen := by
    rw [← hnext]
    exact isLive_of_eq_some hafter
  have hdying : next.isLive = true → session.isLive = true := by
    rw [hopen, hlive]
    exact hlasts.isOpen
  subst hnext
  refine ⟨⟨hsound, hissued, ?_, ?_, ?_, hasked, hconsulted, ?_, fun hended => ?_⟩, rfl, ?_,
    ⟨bodies, hgrown, ?_, fun hclosed => (hsilent hclosed).1⟩, hdying⟩
  · have hposted := h.kept.post hgrown haccounts.account.short (haccounts.account.in_order hasked)
    rw [Dialogue.lacking, hunderWay]
    exact hposted
  · rw [hopen]
    exact haccounts.account
  · rw [hopen]
    exact haccounts.whole
  · intro found hfound
    obtain rfl := Option.some.inj (hafter.symm.trans hfound)
    exact ⟨rfl, rfl, haccounts.lacks, hlistens⟩
  · obtain ⟨hclosed, hnothing⟩ := h.ended hended
    rw [hnothing, (hsilent hclosed).2]
    exact ⟨Bool.eq_false_iff.mpr fun hstill => Bool.eq_false_iff.mp hclosed (hdying hstill), rfl⟩
  · rw [coming, coming, ← List.append_assoc]
    exact List.prefix_append ..
  · rw [coming, coming, List.append_assoc, hunderWay]
    simp only [List.append_assoc]

theorem Standing.attend (h : session.Standing handled waiting lost) (action : ServerAction) :
    ∃ handled waiting lostLater, (session.attend action).Standing handled waiting lostLater ∧
      session.Brings (session.attend action) lost lostLater := by
  unfold Session.attend
  split
  · rename_i hspares
    have hsound := Server.isSound_act h.sound action
    have hprecedes := Server.precedes_act h.sound action
    have hissued := Nat.lt_of_lt_of_le h.issued hprecedes.nextId_le
    cases hbefore : session.connection? with
    | none =>
      have hnone := hprecedes.get?_eq_none h.issued hbefore
      have hafter (consulted : List β) : connection?
          { session with server := session.server.act action, consulted } = none := hnone
      have hconsults : session.server.consults session.id action = [] := by
        have hget : session.server.registry.get? session.id = none := hbefore
        unfold Server.consults
        split
        · rw [hget, Option.elim_none, ite_self]
        · rfl
      rw [hconsults, List.append_nil, convey_of_eq_none (hafter _)]
      exact ⟨handled, waiting, lost,
        h.of_gone (isLive_of_eq_none hbefore) hsound hissued hnone⟩
    | some connection =>
      obtain ⟨hletters, hwritten, hlacks, hlistens⟩ := h.holds connection hbefore
      have hlive := isLive_of_eq_some hbefore
      have haccounts : connection.Accounts handled lost :=
        ⟨hletters ▸ hlive ▸ h.account, hlacks, hlive ▸ h.whole⟩
      have hfares := Server.fares_act h.sound hbefore hspares
      obtain ⟨taken, behind, lostLater, rfl, hlength, hgoes⟩ :=
        hfares.accounts haccounts hlistens
      cases hafter : (session.server.act action).registry.get? session.id with
      | none =>
        rw [hafter] at hfares
        generalize session.server.consults session.id action = consulted at hfares
        cases hfares with
        | collected hclosed =>
          have hgone : connection? { session with server := session.server.act action } = none :=
            hafter
          rw [List.append_nil, convey_of_eq_none hgone]
          exact ⟨handled, _, lost, h.of_gone (hlive.trans hclosed) hsound hissued hafter⟩
      | some after =>
        rw [hafter] at hfares
        obtain ⟨haccounts, hbehind⟩ := hgoes after hafter
        refine ⟨_, behind, lostLater, h.of_lasts hbefore hsound hissued hafter hfares.lasts
          haccounts hbehind ?_ ?_⟩
        · rw [h.asked_eq, List.map_append, List.map_fst_zip (Nat.le_of_eq hlength.symm),
            List.append_assoc]
        · rw [h.consulted_eq, List.map_append, List.map_snd_zip (Nat.le_of_eq hlength)]
  · exact ⟨handled, waiting, lost, h, .refl session lost⟩

/-- Whatever becomes of the backend, the session stands as it did. -/
theorem Standing.shift (h : session.Standing handled waiting lost) (backend : β) :
    (session.act (.shift backend)).Standing handled waiting lost ∧
      session.Brings (session.act (.shift backend)) lost lost := by
  refine h.replace h.sound h.issued rfl rfl ?_ h.ended
  intro connection hconnection
  obtain ⟨hletters, hwritten, hlacks, hlistens⟩ := h.holds connection hconnection
  exact ⟨hletters, hwritten, hlacks, hlistens⟩

theorem Standing.hangUp (h : session.Standing handled waiting lost) :
    session.hangUp.Standing handled waiting lost ∧ session.Brings session.hangUp lost lost := by
  unfold Session.hangUp
  split
  · exact ⟨h, .refl session lost⟩
  · rename_i hdead
    refine h.replace h.sound h.issued rfl rfl (fun connection hconnection => ?_) fun hended =>
      ⟨Bool.eq_false_iff.mpr hdead, List.isEmpty_iff.mp hended⟩
    obtain ⟨hletters, hwritten, hlacks, hlistens⟩ := h.holds connection hconnection
    exact ⟨hletters, hwritten, hlacks, hlistens⟩

theorem Standing.carry (h : session.Standing handled waiting lost) (count : Nat) :
    (session.carry count).Standing handled waiting lost ∧
      session.Brings (session.carry count) lost lost := by
  unfold Session.carry
  cases hbytes : session.dialogue.client.channel.sent.take count with
  | nil =>
    simp only [hbytes]
    exact ⟨h, .refl session lost⟩
  | cons byte bytes =>
    simp only [hbytes]
    have hconnection := Server.get?_arrive h.sound session.id (.data (byte :: bytes))
    refine h.replace (Server.isSound_act h.sound _)
      (Nat.lt_of_lt_of_le h.issued (Server.precedes_act h.sound _).nextId_le) rfl ?_ ?_ h.ended
    · change Option.any _ ((session.server.act _).registry.get? session.id) = _
      rw [hconnection, Option.any_map]
      rfl
    · intro found hfound
      obtain ⟨connection, hbefore, rfl⟩ := Option.map_eq_some_iff.mp (hconnection.symm.trans hfound)
      obtain ⟨hletters, hwritten, hlacks, hlistens⟩ := h.holds connection hbefore
      refine ⟨hletters, hwritten, hlacks, fun hopen => ?_⟩
      refine (hlistens hopen).arrive (List.cons_ne_nil _ _) ?_
      rw [← hbytes]
      exact (List.take_append_drop ..).symm

theorem Standing.bring (h : session.Standing handled waiting lost) (count : Nat) :
    (session.act (.bring count)).Standing handled waiting lost ∧
      session.Brings (session.act (.bring count)) lost lost := by
  change (session.perform (.bring count)).Standing handled waiting lost ∧
    session.Brings (session.perform (.bring count)) lost lost
  cases hended : session.dialogue.client.channel.ended with
  | true =>
    have hsame : session.perform (.bring count) = session := by
      simp only [perform, Dialogue.act, Dialogue.bring, hended, if_true]
    rw [hsame]
    exact ⟨h, .refl session lost⟩
  | false =>
    have hgoes : ¬ session.dialogue.client.channel.ended = true := by simp [hended]
    have hdialogue : session.dialogue.act (.bring count) =
        { session.dialogue with
          client := { session.dialogue.client with
            channel := { session.dialogue.client.channel with
              incoming := session.dialogue.client.channel.incoming ++
                session.dialogue.underWay.take count } }
          underWay := session.dialogue.underWay.drop count } := by
      simp only [Dialogue.act, Dialogue.bring, Channel.deliver, if_neg hgoes]
    have hcoming : session.dialogue.client.channel.incoming ++
        session.dialogue.underWay.take count ++ session.dialogue.underWay.drop count =
          session.coming := by
      rw [List.append_assoc, List.take_append_drop, coming]
    unfold perform
    rw [hdialogue]
    refine ⟨⟨h.sound, h.issued, ?_, h.account, h.whole, h.asked_eq, h.consulted_eq, ?_,
      fun hstopped => absurd hstopped hgoes⟩, .of_eq rfl rfl hcoming fun hopen => hopen⟩
    · refine h.kept.of_faces fun left hfaces => ?_
      rw [Client.Faces] at hfaces ⊢
      rw [← hfaces, Dialogue.lacking, ← List.append_assoc, ← List.append_assoc]
      exact congrArg (· ++ lost) hcoming
    · intro connection hconnection
      obtain ⟨hletters, hwritten, hlacks, hlistens⟩ := h.holds connection hconnection
      exact ⟨hletters, hwritten, hlacks, hlistens⟩

/-- The client sees to its call or to its events. -/
theorem Standing.perform (h : session.Standing handled waiting lost) {deed : Deed}
    (hdeed : deed = .settle ∨ deed = .takeEvent) :
    (session.perform deed).Standing handled waiting lost := by
  obtain ⟨hasked, hletters, hunderWay, hreads⟩ := session.dialogue.act_frame hdeed
  refine ⟨h.sound, h.issued, ?_, ?_, h.whole, hasked.trans h.asked_eq, h.consulted_eq, ?_, ?_⟩
  · have hkept := h.kept.act deed
    rwa [Dialogue.act_lacking _ _ (.inr hdeed)] at hkept
  · exact hletters ▸ h.account
  · intro connection hconnection
    obtain ⟨hsame, hwritten, hlacks, hlistens⟩ := h.holds connection hconnection
    exact ⟨hletters.trans hsame, hwritten, hlacks, hreads.sent_eq ▸ hlistens⟩
  · intro hended
    rw [Session.perform, hreads.ended_eq] at hended
    obtain ⟨hdead, hnothing⟩ := h.ended hended
    exact ⟨hdead, hunderWay.trans hnothing⟩

theorem Standing.ask (h : session.Standing handled waiting lost) (request : Request) :
    ∃ waiting, (session.perform (.ask request)).Standing handled waiting lost := by
  obtain ⟨hletters, hunderWay, hended, hsends⟩ := session.dialogue.act_ask_frame request
  have hkept := h.kept.act (.ask request)
  rw [Dialogue.act_lacking _ _ (.inl ⟨request, rfl⟩)] at hkept
  have hstops : (session.dialogue.act (.ask request)).client.channel.ended = true →
      session.isLive = false ∧ (session.dialogue.act (.ask request)).underWay = [] := by
    rw [hended, hunderWay]
    exact h.ended
  rcases hsends with ⟨hasked, hsent⟩ | ⟨payload, hpayload, hasked, hsent⟩
  · refine ⟨waiting, h.sound, h.issued, hkept, hletters ▸ h.account, h.whole,
      hasked.trans h.asked_eq, h.consulted_eq, ?_, hstops⟩
    intro connection hconnection
    obtain ⟨hsame, hwritten, hlacks, hlistens⟩ := h.holds connection hconnection
    exact ⟨hletters.trans hsame, hwritten, hlacks, hsent ▸ hlistens⟩
  · refine ⟨waiting ++ [request], h.sound, h.issued, hkept, hletters ▸ h.account, h.whole, ?_,
      h.consulted_eq, ?_, hstops⟩
    · rw [Session.perform, hasked, h.asked_eq, List.append_assoc]
    · intro connection hconnection
      obtain ⟨hsame, hwritten, hlacks, hlistens⟩ := h.holds connection hconnection
      refine ⟨hletters.trans hsame, hwritten, hlacks, fun hopen => ?_⟩
      rw [Session.perform, hsent]
      exact (hlistens hopen).ask hpayload

/-- Every action that happens behind the client's back keeps the invariant. -/
theorem Standing.act_of_isQuiet (h : session.Standing handled waiting lost)
    {action : SessionAction β} (hquiet : action.isQuiet = true) :
    ∃ handled waiting lostLater, (session.act action).Standing handled waiting lostLater ∧
      session.Brings (session.act action) lost lostLater := by
  cases action with
  | attend action => exact h.attend action
  | shift backend => exact ⟨handled, waiting, lost, h.shift backend⟩
  | carry count => exact ⟨handled, waiting, lost, h.carry count⟩
  | bring count => exact ⟨handled, waiting, lost, h.bring count⟩
  | hangUp => exact ⟨handled, waiting, lost, h.hangUp⟩
  | ask | settle | takeEvent => cases hquiet

/-- Every action keeps the invariant. -/
theorem Standing.act (h : session.Standing handled waiting lost) (action : SessionAction β) :
    ∃ handled waiting lost, (session.act action).Standing handled waiting lost := by
  cases hquiet : action.isQuiet with
  | true =>
    obtain ⟨handled, waiting, lost, hafter, -⟩ := h.act_of_isQuiet hquiet
    exact ⟨handled, waiting, lost, hafter⟩
  | false =>
    cases action with
    | ask request =>
      obtain ⟨waiting, hafter⟩ := h.ask request
      exact ⟨handled, waiting, lost, hafter⟩
    | settle => exact ⟨handled, waiting, lost, h.perform (.inl rfl)⟩
    | takeEvent => exact ⟨handled, waiting, lost, h.perform (.inr rfl)⟩
    | attend | shift | carry | bring | hangUp => cases hquiet

theorem Reached.standing (h : session.Reached) :
    ∃ handled waiting lost, session.Standing handled waiting lost := by
  induction h with
  | start hruns haccept => exact ⟨[], [], [], .start hruns haccept⟩
  | step action _ ih =>
    obtain ⟨handled, waiting, lost, hstanding⟩ := ih
    exact hstanding.act action

/-- A row of actions behind the client's back brings what the server writes. -/
theorem Standing.foldl (h : session.Standing handled waiting lost)
    {actions : List (SessionAction β)} (hquiet : ∀ action ∈ actions, action.isQuiet = true) :
    ∃ handled waiting lostLater,
      (actions.foldl Session.act session).Standing handled waiting lostLater ∧
        session.Brings (actions.foldl Session.act session) lost lostLater := by
  induction actions generalizing session handled waiting lost with
  | nil => exact ⟨handled, waiting, lost, h, .refl session lost⟩
  | cons action actions ih =>
    obtain ⟨hfirst, hothers⟩ := List.forall_mem_cons.mp hquiet
    obtain ⟨handled, waiting, lostThen, hnext, hbrings⟩ := h.act_of_isQuiet hfirst
    obtain ⟨handled, waiting, lostLater, hlast, hmore⟩ := ih hnext hothers
    exact ⟨handled, waiting, lostLater, hlast, hbrings.trans hmore⟩

end Session

end MeshControl
