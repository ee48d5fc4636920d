/-!
Faults of streams and sockets, in words.
-/

namespace MeshControl

/-- A fault that the operating system reports. -/
inductive SystemFault where
  | notFound
  | tryAgain
  | invalidArgument
  | brokenPipe
  | addressInUse
  | connectionRefused
deriving DecidableEq, Repr

namespace SystemFault

def number : SystemFault → Nat
  | notFound => 2
  | tryAgain => 11
  | invalidArgument => 22
  | brokenPipe => 32
  | addressInUse => 98
  | connectionRefused => 111

def description : SystemFault → String
  | notFound => "No such file or directory"
  | tryAgain => "Resource temporarily unavailable"
  | invalidArgument => "Invalid argument"
  | brokenPipe => "Broken pipe"
  | addressInUse => "Address already in use"
  | connectionRefused => "Connection refused"

def message (fault : SystemFault) : String :=
  s!"{fault.description} (os error {fault.number})"

end SystemFault

inductive Fault where
  /-- Nobody reads what is written. -/
  | brokenPipe
  /-- Nothing can be written for now. -/
  | wouldBlock
  /-- A fault that the operating system reports. -/
  | system (fault : SystemFault)
deriving DecidableEq, Repr

def Fault.message : Fault → String
  | brokenPipe => "broken pipe"
  | wouldBlock => "operation would block"
  | system fault => fault.message

end MeshControl
