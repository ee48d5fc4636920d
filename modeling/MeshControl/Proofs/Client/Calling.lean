import MeshControl.Backend.Memory
import MeshControl.Proofs.Client.Reading
import MeshControl.Proofs.Connection.Answering

/-!
Calls with and without a server between. `MemoryBackend.apply` carries a request out on a backend in
memory and says what the caller gets. A client's call sends the request and then settles it
(`perform_eq`); if the reply that it reads is the one that a server with the same backend gives, it
gets the same (`settleCall_of_reply`).
-/

namespace MeshControl

/-- What a call gives back: a failure, nothing, or the name of the tunnel. -/
abbrev CallResult := Except ClientError (Option String)

/-- What a caller gets for a status. -/
def Status.result (status : Status) : CallResult :=
  if status.isOk then .ok none else .error (.server status)

namespace MemoryBackend

/-- Carries a request out without a server between. A prefix that does not have eight bytes is
invalid, the name of the tunnel is unknown if there is none, and a subscription changes nothing. -/
def apply (backend : MemoryBackend) : Request → CallResult × MemoryBackend
  | .addService enterprise serviceData serverData =>
    let (status, backend) := backend.addService { enterprise, serviceData, serverData }
    (status.result, backend)
  | .removeService enterprise serviceData =>
    let (status, backend) := backend.removeService enterprise serviceData
    (status.result, backend)
  | .addPrefix terms =>
    match MeshPrefix.ofBytes? terms.meshPrefix with
    | none => (.error (.server .invalid), backend)
    | some meshPrefix =>
      let (status, backend) := backend.addPrefix
        { meshPrefix, length := terms.length, slaac := terms.slaac, onMesh := terms.onMesh
          stable := terms.stable }
      (status.result, backend)
  | .removePrefix bytes length =>
    match MeshPrefix.ofBytes? bytes with
    | none => (.error (.server .invalid), backend)
    | some meshPrefix =>
      let (status, backend) := backend.removePrefix meshPrefix length
      (status.result, backend)
  | .getTunnelName =>
    match backend.tunnelName with
    | some name => (.ok (some name), backend)
    | none => (.error (.server .unknown), backend)
  | .subscribe _ => (.ok none, backend)

variable {backend : MemoryBackend}

/-- A server's backend comes to the same. -/
theorem after_eq_apply (backend : MemoryBackend) (request : Request) :
    Backend.after backend (some request) = (backend.apply request).2 := by
  cases request with
  | addService | removeService | subscribe => rfl
  | addPrefix terms =>
    simp only [Backend.after, Option.bind_some, Backend.change?, apply]
    cases MeshPrefix.ofBytes? terms.meshPrefix <;> rfl
  | removePrefix bytes length =>
    simp only [Backend.after, Option.bind_some, Backend.change?, apply]
    cases MeshPrefix.ofBytes? bytes <;> rfl
  | getTunnelName =>
    simp only [apply]
    cases backend.tunnelName <;> rfl

theorem tunnelName_apply (backend : MemoryBackend) (request : Request) :
    (backend.apply request).2.tunnelName = backend.tunnelName := by
  cases request with
  | addService | subscribe => rfl
  | removeService enterprise serviceData =>
    simp only [apply, removeService]
    split <;> rfl
  | addPrefix terms =>
    simp only [apply]
    cases MeshPrefix.ofBytes? terms.meshPrefix <;> rfl
  | removePrefix bytes length =>
    simp only [apply]
    cases MeshPrefix.ofBytes? bytes with
    | none => rfl
    | some meshPrefix =>
      simp only [removePrefix]
      split <;> rfl
  | getTunnelName =>
    simp only [apply]
    cases hname : backend.tunnelName <;> exact hname

/-- What a caller gets, in the terms of what is published. -/
def result (backend : MemoryBackend) : Request → CallResult
  | .removeService enterprise serviceData =>
    if (enterprise, serviceData) ∈ backend.services.keys then .ok none
    else .error (.server .noSuchKey)
  | .addPrefix terms =>
    if terms.meshPrefix.length = MeshPrefix.size then .ok none else .error (.server .invalid)
  | .removePrefix bytes length =>
    if bytes.length = MeshPrefix.size then
      if ∃ entry ∈ backend.prefixes.toList, entry.meshPrefix.bytes = bytes ∧ entry.length = length
      then .ok none
      else .error (.server .noSuchKey)
    else .error (.server .invalid)
  | .getTunnelName =>
    backend.tunnelName.elim (.error (.server .unknown)) fun name => .ok (some name)
  | .addService .. | .subscribe _ => .ok none

theorem contains_prefix_iff (entries : KeyedList OnMeshPrefix.key) (meshPrefix : MeshPrefix)
    (length : UInt8) : entries.contains (meshPrefix, length) = true ↔
      ∃ entry ∈ entries.toList, entry.meshPrefix.bytes = meshPrefix.bytes ∧
        entry.length = length := by
  have hbytes (entry : OnMeshPrefix) :
      entry.meshPrefix = meshPrefix ↔ entry.meshPrefix.bytes = meshPrefix.bytes := by
    rw [MeshPrefix.mk.injEq]
  simp [KeyedList.contains, OnMeshPrefix.key, hbytes]

/-- A removal fails exactly if what it removes is not there. -/
theorem apply_result (backend : MemoryBackend) (request : Request) :
    (backend.apply request).1 = backend.result request := by
  cases request with
  | addService | subscribe => rfl
  | removeService enterprise serviceData =>
    simp only [apply, result, removeService, ← KeyedList.contains_iff_mem_keys]
    split <;> rfl
  | addPrefix terms =>
    by_cases hlength : terms.meshPrefix.length = MeshPrefix.size
    · simp only [apply, result, MeshPrefix.ofBytes?, dif_pos hlength, if_pos hlength]
      rfl
    · simp only [apply, result, MeshPrefix.ofBytes?, dif_neg hlength, if_neg hlength]
  | removePrefix bytes length =>
    by_cases hlength : bytes.length = MeshPrefix.size
    · simp only [apply, result, MeshPrefix.ofBytes?, dif_pos hlength, if_pos hlength, removePrefix,
        contains_prefix_iff]
      split <;> rfl
    · simp only [apply, result, MeshPrefix.ofBytes?, dif_neg hlength, if_neg hlength]
  | getTunnelName =>
    simp only [apply, result]
    cases backend.tunnelName <;> rfl

theorem apply_ne_late (backend : MemoryBackend) (request : Request) :
    (backend.apply request).1 ≠ .error (.connection .tryAgain) := by
  rw [apply_result]
  cases request with
  | addService | subscribe => nofun
  | removeService =>
    simp only [result]
    split <;> nofun
  | addPrefix =>
    simp only [result]
    split <;> nofun
  | removePrefix =>
    simp only [result]
    split
    · split <;> nofun
    · nofun
  | getTunnelName =>
    simp only [result]
    cases backend.tunnelName <;> nofun

/-- What a request other than the question for the tunnel's name is answered with is the status that
its caller gets. -/
theorem exists_status (backend : MemoryBackend) (code : UInt16) {request : Request}
    (hrequest : request ≠ .getTunnelName) :
    ∃ status, (Backend.replyTo backend code (some request)).normal = .response code status ∧
      (backend.apply request).1 = status.result := by
  cases request with
  | getTunnelName => exact absurd rfl hrequest
  | addService | subscribe => exact ⟨.noError, rfl, rfl⟩
  | removeService enterprise serviceData =>
    simp only [Backend.replyTo, Backend.change?, Backend.removeService, apply, removeService,
      Option.elim_some]
    split
    · exact ⟨.noError, rfl, rfl⟩
    · exact ⟨.noSuchKey, rfl, rfl⟩
  | addPrefix terms =>
    simp only [Backend.replyTo, Backend.change?, apply]
    cases MeshPrefix.ofBytes? terms.meshPrefix with
    | none => exact ⟨.invalid, rfl, rfl⟩
    | some meshPrefix => exact ⟨.noError, rfl, rfl⟩
  | removePrefix bytes length =>
    simp only [Backend.replyTo, Backend.change?, apply]
    cases MeshPrefix.ofBytes? bytes with
    | none => exact ⟨.invalid, rfl, rfl⟩
    | some meshPrefix =>
      simp only [Backend.removePrefix, removePrefix, Option.elim_some]
      split
      · exact ⟨.noError, rfl, rfl⟩
      · exact ⟨.noSuchKey, rfl, rfl⟩

/-- Every reply fits into a frame unless the name of the tunnel is too long. -/
theorem fits_replyTo (hname : ∀ name, backend.tunnelName = some name → name.utf8ByteSize ≤ 65525)
    (code : UInt16) (received : Option Request) :
    (ServerMessage.reply (Backend.replyTo backend code received)).Fits := by
  by_contra hlong
  obtain ⟨-, name, hanswer, hsize⟩ := (Backend.not_fits_replyTo_iff backend code received).mp hlong
  have hnamed : backend.tunnelName = some name := by
    cases hstored : backend.tunnelName with
    | none => simp [Backend.tunnelName, hstored] at hanswer
    | some stored => simpa [Backend.tunnelName, hstored] using hanswer
  exact absurd (hname name hnamed) (Nat.not_le_of_gt hsize)

/-- What a request is answered with fits into frames if the event behind a subscription does. -/
theorem fits_answers (hname : ∀ name, backend.tunnelName = some name → name.utf8ByteSize ≤ 65525)
    (code : UInt16) {request : Request}
    (hevent : ∀ kind, request = .subscribe kind →
      (ServerMessage.event (Backend.currentEvent backend kind)).Fits) :
    ∀ message ∈ Backend.answers backend code (some request), message.Fits := by
  intro message hmessage
  rw [Backend.answers, List.mem_cons] at hmessage
  obtain rfl | hmessage := hmessage
  · exact fits_replyTo hname code _
  · cases request with
    | subscribe kind =>
      obtain rfl : message = .event (Backend.currentEvent backend kind) :=
        List.mem_singleton.mp hmessage
      exact hevent kind rfl
    | _ => cases hmessage

end MemoryBackend

namespace Client

/-- Settles the call that a request was sent for. -/
def settleCall : Request → Call (Option String)
  | .getTunnelName => do return some (← settleTunnelName)
  | request => do
    settle request
    return none

/-- The call that makes a request. -/
def perform : Request → Call (Option String)
  | .addService enterprise serviceData serverData => do
    addService enterprise serviceData serverData
    return none
  | .removeService enterprise serviceData => do
    removeService enterprise serviceData
    return none
  | .addPrefix terms => do
    addPrefix terms
    return none
  | .removePrefix meshPrefix length => do
    removePrefix meshPrefix length
    return none
  | .getTunnelName => do return some (← tunnelName)
  | .subscribe kind => do
    subscribe kind
    return none

/-- A call sends its request and settles it. -/
theorem perform_eq (request : Request) :
    perform request = (do
      send request
      settleCall request) := by
  cases request <;> exact bind_assoc ..

variable {client : Client} {request : Request}

/-- A request that is built is written. -/
theorem send_of_encode_eq_ok {bytes : Bytes} {writeBuffer : Buffer}
    (hencode : request.encode client.writeBuffer = .ok bytes writeBuffer) :
    send request client = write bytes { client with writeBuffer } := by
  have hframe : frame request client = .ok bytes { client with writeBuffer } := by
    simp only [frame, hencode]
  exact bind_of_eq_ok hframe

/-- A request that cannot be built is not sent at all. -/
theorem send_of_encode_eq_error {e : WireError} {writeBuffer : Buffer}
    (hencode : request.encode client.writeBuffer = .error e writeBuffer) :
    send request client = .error (.wire e) { client with writeBuffer } := by
  have hframe : frame request client = .error (.wire e) { client with writeBuffer } := by
    simp only [frame, hencode]
  exact bind_of_eq_error hframe

theorem send_of_isHeard {bytes : Bytes} {writeBuffer : Buffer}
    (hencode : request.encode client.writeBuffer = .ok bytes writeBuffer)
    (hheard : client.channel.isHeard = true) :
    send request client = .ok ()
      { client with
        channel := { client.channel with sent := client.channel.sent ++ bytes }, writeBuffer } := by
  rw [send_of_encode_eq_ok hencode]
  simp only [write, Channel.write, if_pos hheard]

/-- What nobody reads is not sent. -/
theorem send_of_unheard {bytes : Bytes} {writeBuffer : Buffer}
    (hencode : request.encode client.writeBuffer = .ok bytes writeBuffer)
    (hunheard : client.channel.isHeard = false) :
    send request client = .error (.connection .brokenPipe) { client with writeBuffer } := by
  rw [send_of_encode_eq_ok hencode]
  simp only [write, Channel.write, hunheard, Bool.false_eq_true, if_false]

/-- A request that fits into a frame is sent in one. -/
theorem send_of_payload? {payload : Bytes} (hpayload : request.payload? = some payload)
    (hheard : client.channel.isHeard = true) :
    ∃ writeBuffer, send request client = .ok ()
      { client with
        channel := { client.channel with sent := client.channel.sent ++ FrameStream.frame payload }
        writeBuffer } := by
  obtain ⟨writeBuffer, hencode⟩ := Request.exists_encode_eq_ok client.writeBuffer hpayload
  exact ⟨writeBuffer, send_of_isHeard hencode hheard⟩

/-- A request that does not is not sent at all. -/
theorem send_of_payload?_eq_none (client : Client) (hnone : request.payload? = none) :
    ∃ e writeBuffer, send request client = .error (.wire e) { client with writeBuffer } := by
  cases hencode : request.encode client.writeBuffer with
  | ok frame writeBuffer =>
    obtain ⟨payload, hpayload, -⟩ := Request.payload?_of_encode_eq_ok hencode
    rw [hnone] at hpayload
    cases hpayload
  | error e writeBuffer => exact ⟨e, writeBuffer, send_of_encode_eq_error hencode⟩

/-- Ends a call with a result. -/
def give (result : CallResult) : Call (Option String) := fun client =>
  match result with
  | .ok value => .ok value client
  | .error e => .error e client

theorem give_inj {first second : CallResult} {before after : Client}
    (h : give first before = give second after) : first = second ∧ before = after := by
  cases first <;> cases second <;> cases h <;> exact ⟨rfl, rfl⟩

/-- What a caller gets for the reply that is read. -/
def judge : Request → Reply → CallResult
  | .getTunnelName, .tunnelName code status name =>
    if code = Request.getTunnelName.type.code then
      if status.isOk then name.elim (.error .missingTunnelName) fun name => .ok (some name)
      else .error (.server status)
    else .error (.unexpectedReply .tunnelNameResponse (.tunnelName code status name))
  | .getTunnelName, reply => .error (.unexpectedReply .tunnelNameResponse reply)
  | request, .response code status =>
    if code = request.type.code then status.result
    else .error (.unexpectedReply .response (.response code status))
  | _, reply => .error (.unexpectedReply .response reply)

theorem judge_response (hrequest : request ≠ .getTunnelName) (code : UInt16) (status : Status) :
    judge request (.response code status) =
      if code = request.type.code then status.result
      else .error (.unexpectedReply .response (.response code status)) := by
  cases request with
  | getTunnelName => exact absurd rfl hrequest
  | _ => rfl

theorem judge_tunnelName (hrequest : request ≠ .getTunnelName) (code : UInt16) (status : Status)
    (name : Option String) :
    judge request (.tunnelName code status name) =
      .error (.unexpectedReply .response (.tunnelName code status name)) := by
  cases request with
  | getTunnelName => exact absurd rfl hrequest
  | _ => rfl

theorem settle_of_readReply {reply : Reply} {after : Client} (hrequest : request ≠ .getTunnelName)
    (hread : readReply client = .ok reply after) :
    settleCall request client = give (judge request reply) after := by
  have hsettle : settleCall request client = (do settle request; return none) client := by
    cases request with
    | getTunnelName => exact absurd rfl hrequest
    | _ => rfl
  have hsettled : settle request client = _ := bind_of_eq_ok hread
  rw [hsettle]
  cases reply with
  | tunnelName code status name =>
    rw [judge_tunnelName hrequest]
    exact bind_of_eq_error hsettled
  | response code status =>
    rw [judge_response hrequest, Status.result]
    by_cases hcode : code = request.type.code
    · rw [if_pos hcode]
      simp only [if_pos hcode] at hsettled
      cases hok : status.isOk with
      | true =>
        rw [hok] at hsettled
        exact bind_of_eq_ok hsettled
      | false =>
        rw [hok] at hsettled
        exact bind_of_eq_error hsettled
    · rw [if_neg hcode]
      simp only [if_neg hcode] at hsettled
      exact bind_of_eq_error hsettled

theorem settleTunnelName_of_readReply {reply : Reply} {after : Client}
    (hread : readReply client = .ok reply after) :
    settleCall .getTunnelName client = give (judge .getTunnelName reply) after := by
  have hsettled : settleTunnelName client = _ := bind_of_eq_ok hread
  cases reply with
  | response code status => exact bind_of_eq_error hsettled
  | tunnelName code status name =>
    rw [judge]
    by_cases hcode : code = Request.getTunnelName.type.code
    · rw [if_pos hcode]
      simp only [if_pos hcode] at hsettled
      cases hok : status.isOk with
      | true =>
        rw [hok] at hsettled
        cases name with
        | none => exact bind_of_eq_error hsettled
        | some name => exact bind_of_eq_ok hsettled
      | false =>
        rw [hok] at hsettled
        exact bind_of_eq_error hsettled
    · rw [if_neg hcode]
      simp only [if_neg hcode] at hsettled
      exact bind_of_eq_error hsettled

/-- A call whose wait ends with a reply gets what the reply is judged to be. -/
theorem settleCall_of_readReply {reply : Reply} {after : Client}
    (hread : readReply client = .ok reply after) :
    settleCall request client = give (judge request reply) after := by
  by_cases hrequest : request = .getTunnelName
  · subst hrequest
    exact settleTunnelName_of_readReply hread
  · exact settle_of_readReply hrequest hread

/-- A call that reads the reply of a server with a backend in memory gets what the request gives on
that backend. -/
theorem settleCall_of_reply {backend : MemoryBackend} {after : Client}
    (hread : readReply client =
      .ok (Backend.replyTo backend request.type.code (some request)).normal after) :
    settleCall request client = give (backend.apply request).1 after := by
  by_cases hrequest : request = .getTunnelName
  · subst hrequest
    simp only [Backend.replyTo, Backend.tunnelName] at hread
    simp only [MemoryBackend.apply]
    cases hname : backend.tunnelName with
    | none =>
      rw [hname] at hread
      exact settleCall_of_readReply hread
    | some name =>
      rw [hname] at hread
      exact settleCall_of_readReply hread
  · obtain ⟨status, hnormal, hresult⟩ :=
      MemoryBackend.exists_status backend request.type.code hrequest
    rw [hnormal] at hread
    rw [settleCall_of_readReply hread, judge_response hrequest, if_pos rfl, hresult]

/-- A call whose wait fails fails with it. -/
theorem settleCall_of_error {e : ClientError} {after : Client}
    (hfail : readReply client = .error e after) :
    settleCall request client = .error e after := by
  cases request with
  | getTunnelName => exact bind_of_eq_error (bind_of_eq_error hfail)
  | _ => exact bind_of_eq_error (bind_of_eq_error hfail)

end Client

end MeshControl
