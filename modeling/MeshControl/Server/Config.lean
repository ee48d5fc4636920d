/-!
The settings of a server.
-/

namespace MeshControl

/-- The path of the control socket where none is given. -/
def defaultSocketPath : String := "/var/run/cti-server-socket"

/-- The settings of a server. Times are in milliseconds. -/
structure ServerConfig where
  socketPath : String := defaultSocketPath
  /-- The number of input bytes that every new connection reserves. -/
  bufferSize : Nat := 100
  /-- The largest number of connections that are open at once. -/
  maxConnections : Nat := 64
  /-- How long a connection may be silent, if there is a limit. -/
  idleLimit : Option Nat := none
  /-- The largest number of ready sources that one pass serves. -/
  maxEvents : Nat := 256
deriving DecidableEq, Repr

end MeshControl
