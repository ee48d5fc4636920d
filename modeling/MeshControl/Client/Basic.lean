import MeshControl.Client.Error
import MeshControl.Message.Request
import MeshControl.Stream.Channel
/-!
A client of a control socket: its end of the stream, two buffers that it uses again for every
message, and the events that it has not handed out yet. It sends whole requests and reads whole
messages; `length_readMessage` says that a message that is read uses up at least its length.
-/

namespace MeshControl

structure Client where
  channel : Channel := {}
  /-- Where requests are built. -/
  writeBuffer : Buffer := .empty
  /-- Where the body of a message is kept while it is read. -/
  readBuffer : Buffer := .empty
  /-- The events that came while a reply was expected. -/
  pending : List Event := []

/-- A call of a client, which may fail. -/
abbrev Call := EStateM ClientError Client

/-- What a client meets at the place of the socket that it connects to. -/
inductive Endpoint where
  | listening
  /-- There is no socket. -/
  | missing
  /-- There is a socket that nobody listens on. -/
  | deserted
deriving DecidableEq, Repr

namespace Client

def connect : Endpoint → Except ClientError Client
  | .listening => .ok {}
  | .missing => .error (.connection .notFound)
  | .deserted => .error (.connection .connectionRefused)

def summary (client : Client) : String :=
  s!"Client \x7b pending_events: {client.pending.length}, .. \x7d"

/-- Takes out what was sent since the last time. -/
def flush (client : Client) : Bytes × Client :=
  (client.channel.sent, { client with channel := { client.channel with sent := [] } })

def frame (request : Request) : Call Bytes := fun client =>
  match request.encode client.writeBuffer with
  | .ok frame writeBuffer => .ok frame { client with writeBuffer }
  | .error e writeBuffer => .error (.wire e) { client with writeBuffer }

def write (bytes : Bytes) : Call Unit := fun client =>
  match client.channel.write bytes with
  | (.ok _, channel) => .ok () { client with channel }
  | (.error fault, channel) => .error (.connection fault) { client with channel }

/-- Sends a request. One that cannot be framed is not sent at all. -/
def send (request : Request) : Call Unit := do
  let frame ← frame request
  write frame

/-- The failure that a shortage of bytes means. -/
def shortage : Shortage → ClientError
  | .ended => .disconnected
  | .late => .connection .tryAgain

def take (count : Nat) : Call Bytes := fun client =>
  match client.channel.read count with
  | (.ok bytes, channel) => .ok bytes { client with channel }
  | (.error reason, channel) => .error (shortage reason) { client with channel }

/-- Makes room for the body of a message. -/
def prepare (length : Nat) : Call Unit := fun client =>
  match Encoder.reserve length client.readBuffer.reset with
  | .ok _ readBuffer => .ok () { client with readBuffer }
  | .error e readBuffer => .error (.wire e) { client with readBuffer }

/-- Decodes a body from where it is kept. -/
def decode (body : Bytes) : Call ServerMessage := fun client =>
  let readBuffer := client.readBuffer.fill body
  match ServerMessage.decode readBuffer.filled with
  | .ok message => .ok message { client with readBuffer }
  | .error e => .error (.wire e) { client with readBuffer }

/-- Reads a body of a length and decodes it. -/
def readBody (length : Nat) : Call ServerMessage := do
  prepare length
  let body ← take length
  decode body

def readMessage : Call ServerMessage := do
  let header ← take 2
  readBody (BigEndian.value header)

/-- What is taken is no longer there. -/
theorem length_take {count : Nat} {before after : Client} {bytes : Bytes}
    (h : take count before = .ok bytes after) :
    after.channel.incoming.length + count = before.channel.incoming.length := by
  unfold take at h
  split at h
  · rename_i hread
    simp only [EStateM.Result.ok.injEq] at h
    obtain ⟨rfl, rfl⟩ := h
    exact Channel.length_read hread
  · simp at h

theorem channel_prepare {length : Nat} {before after : Client}
    (h : prepare length before = .ok () after) : after.channel = before.channel := by
  unfold prepare at h
  split at h
  · simp only [EStateM.Result.ok.injEq, true_and] at h
    subst h
    rfl
  · simp at h

theorem channel_decode {body : Bytes} {before after : Client} {message : ServerMessage}
    (h : decode body before = .ok message after) : after.channel = before.channel := by
  simp only [decode] at h
  split at h
  · simp only [EStateM.Result.ok.injEq] at h
    obtain ⟨-, rfl⟩ := h
    rfl
  · simp at h

/-- A step of a call that follows another succeeds only if both do. -/
theorem bind_eq_ok {α γ : Type} {first : Call α} {next : α → Call γ} {before after : Client}
    {result : γ} (h : (first >>= next) before = .ok result after) :
    ∃ value between, first before = .ok value between ∧ next value between = .ok result after := by
  change EStateM.bind first next before = _ at h
  unfold EStateM.bind at h
  split at h
  · exact ⟨_, _, ‹_›, h⟩
  · simp at h

/-- A message that is read was there with its length. -/
theorem length_readMessage {before after : Client} {message : ServerMessage}
    (h : readMessage before = .ok message after) :
    after.channel.incoming.length + 2 ≤ before.channel.incoming.length := by
  obtain ⟨header, client, hheader, h⟩ := bind_eq_ok h
  obtain ⟨_, prepared, hprepare, h⟩ := bind_eq_ok h
  obtain ⟨body, filled, hbody, hdecode⟩ := bind_eq_ok h
  have := length_take hheader
  have := length_take hbody
  rw [channel_decode hdecode]
  rw [channel_prepare hprepare] at this
  omega

theorem pending_take {count : Nat} {before after : Client} {bytes : Bytes}
    (h : take count before = .ok bytes after) : after.pending = before.pending := by
  unfold take at h
  split at h
  · simp only [EStateM.Result.ok.injEq] at h
    obtain ⟨-, rfl⟩ := h
    rfl
  · simp at h

theorem pending_prepare {length : Nat} {before after : Client}
    (h : prepare length before = .ok () after) : after.pending = before.pending := by
  unfold prepare at h
  split at h
  · simp only [EStateM.Result.ok.injEq, true_and] at h
    subst h
    rfl
  · simp at h

theorem pending_decode {body : Bytes} {before after : Client} {message : ServerMessage}
    (h : decode body before = .ok message after) : after.pending = before.pending := by
  simp only [decode] at h
  split at h
  · simp only [EStateM.Result.ok.injEq] at h
    obtain ⟨-, rfl⟩ := h
    rfl
  · simp at h

/-- Reading a message leaves the queue alone. -/
theorem pending_readMessage {before after : Client} {message : ServerMessage}
    (h : readMessage before = .ok message after) : after.pending = before.pending := by
  obtain ⟨header, client, hheader, h⟩ := bind_eq_ok h
  obtain ⟨_, prepared, hprepare, h⟩ := bind_eq_ok h
  obtain ⟨body, filled, hbody, hdecode⟩ := bind_eq_ok h
  rw [pending_decode hdecode, pending_take hbody, pending_prepare hprepare, pending_take hheader]

end Client

end MeshControl
