import MeshControl.Client.Basic
/-!
The calls of a client. A call sends a request and then settles it: it reads messages until a reply
comes, queues the events that come before, and judges the reply. A reply is taken for the answer to
a call by its type and by the request type that it repeats.
-/

namespace MeshControl

namespace Client

/-- Reads messages until a reply comes. Events on the way are queued. -/
def readReply (client : Client) : EStateM.Result ClientError Client Reply :=
  match h : readMessage client with
  | .error e after => .error e after
  | .ok (.reply reply) after => .ok reply after
  | .ok (.event event) after =>
    have := length_readMessage h
    readReply { after with pending := after.pending ++ [event] }
termination_by client.channel.incoming.length
decreasing_by omega

/-- Reads the status that answers a request. -/
def settle (request : Request) : Call Unit := do
  match ← readReply with
  | .response code status =>
    if code = request.type.code then
      if status.isOk then return ()
      else throw (.server status)
    else throw (.unexpectedReply .response (.response code status))
  | reply => throw (.unexpectedReply .response reply)

/-- Makes a call that is answered with a status. -/
def call (request : Request) : Call Unit := do
  send request
  settle request

def addService (enterprise : UInt32) (serviceData serverData : Bytes) : Call Unit :=
  call (.addService enterprise serviceData serverData)

def removeService (enterprise : UInt32) (serviceData : Bytes) : Call Unit :=
  call (.removeService enterprise serviceData)

def addPrefix (terms : PrefixTerms) : Call Unit := call (.addPrefix terms)

def removePrefix (meshPrefix : Bytes) (length : UInt8) : Call Unit :=
  call (.removePrefix meshPrefix length)

def subscribe (kind : EventKind) : Call Unit := call (.subscribe kind)

/-- Reads the name of the tunnel. -/
def settleTunnelName : Call String := do
  match ← readReply with
  | .tunnelName code status name =>
    if code = Request.getTunnelName.type.code then
      if status.isOk then
        match name with
        | some name => return name
        | none => throw .missingTunnelName
      else throw (.server status)
    else throw (.unexpectedReply .tunnelNameResponse (.tunnelName code status name))
  | reply => throw (.unexpectedReply .tunnelNameResponse reply)

def tunnelName : Call String := do
  send .getTunnelName
  settleTunnelName

end Client

end MeshControl
