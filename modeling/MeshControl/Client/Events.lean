import MeshControl.Client.Basic
/-!
The events of a client. An event that was queued during a call is handed out before any that is
still to be read. Taking events comes to an end: `outlook_nextEvent`.
-/

namespace MeshControl

namespace Client

def readEvent : Call Event := fun client =>
  match readMessage client with
  | .ok (.event event) after => .ok event after
  | .ok (.reply reply) after => .error (.unexpectedReply .event reply) after
  | .error e after => .error e after

/-- Takes the next event from the queue, or from the stream if the queue is empty. -/
def nextEvent : Call Event := fun client =>
  match client.pending with
  | event :: pending => .ok event { client with pending }
  | [] => readEvent client

/-- How many events could still be taken at most. -/
def outlook (client : Client) : Nat := client.pending.length + client.channel.incoming.length

/-- Taking an event leaves fewer to be taken. -/
theorem outlook_nextEvent {before after : Client} {event : Event}
    (h : nextEvent before = .ok event after) : after.outlook < before.outlook := by
  unfold nextEvent at h
  split at h
  · rename_i pending hpending
    simp only [EStateM.Result.ok.injEq] at h
    obtain ⟨-, rfl⟩ := h
    simp [outlook, hpending]
  · rename_i hpending
    unfold readEvent at h
    split at h
    · rename_i hread
      simp only [EStateM.Result.ok.injEq] at h
      obtain ⟨-, rfl⟩ := h
      have hlength := length_readMessage hread
      simp only [outlook, pending_readMessage hread, hpending, List.length_nil]
      omega
    · simp at h
    · simp at h

/-- Takes events until there are no more, and tells why there are none. -/
def watch (client : Client) : List Event × ClientError × Client :=
  match h : nextEvent client with
  | .error e after => ([], e, after)
  | .ok event after =>
    have := outlook_nextEvent h
    let (events, e, last) := watch after
    (event :: events, e, last)
termination_by client.outlook

end Client

end MeshControl
