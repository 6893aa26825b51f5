import Dockmaster.Config
import Dockmaster.Fault

/-!
# The address of the daemon

Which address the service connects to, and when connecting fails at once. An address that begins
with the scheme of Unix sockets is a path, and something must exist there; of any other address
nothing is checked before the first request.
-/

namespace Dockmaster

/-- A failed connection: where it was to lead, and why it fails. -/
structure ConnectFault where
  /-- The address as it was configured, or nothing for the local default. -/
  host : Option String
  /-- What fails. -/
  cause : DaemonFault
  deriving DecidableEq, Repr

/-- The texts of a failed connection and of its cause, joined. -/
def ConnectFault.message (fault : ConnectFault) : String :=
  let context := match fault.host with
    | some host => "Failed to connect to Docker at " ++ host
    | none => "Failed to connect to the local Docker daemon"
  context ++ ": " ++ fault.cause.message

/-- Where requests go. -/
inductive Endpoint where
  /-- To the socket at a path. -/
  | socket (path : String)
  /-- To a host over the network. -/
  | network (host : String)
  deriving DecidableEq, Repr

namespace Endpoint

/-- The scheme of Unix sockets. -/
def socketScheme : String := "unix://"

/-- The path of the socket when nothing else is said. -/
def defaultSocket : String := "/var/run/docker.sock"

/-- The path in an address that begins with the scheme of Unix sockets. -/
def socketPath? (host : String) : Option String :=
  if socketScheme.toList.isPrefixOf host.toList then
    some (String.ofList (host.toList.drop socketScheme.length))
  else none

/-- The endpoint that the settings name. Without a host the address `fallback?` is used if it is one
of a socket, and else the default socket. -/
def ofConfig (config : Config) (fallback? : Option String) : Endpoint :=
  match config.host with
  | some host => ((socketPath? host).map .socket).getD (.network host)
  | none => .socket ((fallback?.bind socketPath?).getD defaultSocket)

/-- The endpoint that the settings name, if it can be connected to. -/
def connect (pathExists : String → Bool) (config : Config) (fallback? : Option String) :
    Except ConnectFault Endpoint :=
  match ofConfig config fallback? with
  | .socket path =>
    if pathExists path then .ok (.socket path)
    else .error ⟨config.host, .socketNotFound path⟩
  | .network host => .ok (.network host)

end Endpoint

end Dockmaster
