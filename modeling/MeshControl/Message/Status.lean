/-!
The status that answers a request, a signed code in the error space of DNS service discovery.
-/

namespace MeshControl

inductive Status where
  | noError
  | unknown
  | noMemory
  | invalid
  | noSuchKey
  /-- No server could be reached. Only a client reports this. -/
  | daemonNotRunning
  /-- The connection ended. Only a client reports this. -/
  | disconnected
  /-- A code without a name. -/
  | other (code : Int32)
deriving DecidableEq, Repr

namespace Status

def named : List Status :=
  [noError, unknown, noMemory, invalid, noSuchKey, daemonNotRunning, disconnected]

def code : Status → Int32
  | noError => 0
  | unknown => -65537
  | noMemory => -65539
  | invalid => -65549
  | noSuchKey => -65556
  | daemonNotRunning => -65563
  | disconnected => -65569
  | other code => code

/-- The status of a code: the one with a name where there is one. -/
def ofCode (code : Int32) : Status :=
  (named.find? (·.code = code)).getD (other code)

/-- Reading a code and writing it gives the code back. -/
@[simp] theorem code_ofCode (code : Int32) : (ofCode code).code = code := by
  unfold ofCode
  cases h : named.find? (·.code = code) with
  | none => rfl
  | some status => simpa using List.find?_some h

def isOk (status : Status) : Bool := status == noError

def isOther : Status → Bool
  | other _ => true
  | _ => false

/-- The name of a status, or the code in parentheses behind the word for all others. -/
def name : Status → String
  | noError => "NoError"
  | unknown => "Unknown"
  | noMemory => "NoMemory"
  | invalid => "Invalid"
  | noSuchKey => "NoSuchKey"
  | daemonNotRunning => "DaemonNotRunning"
  | disconnected => "Disconnected"
  | other code => s!"Other({code.toInt})"

/-- The status in words: a name with its code, or the bare code. -/
def text : Status → String
  | other code => s!"status {code.toInt}"
  | status => s!"{status.name} ({status.code.toInt})"

end Status

end MeshControl
