import Dockmaster.Daemon.Remote
import Dockmaster.Endpoint
import Dockmaster.Monitor.Basic
import Dockmaster.Startup.EnvFile

/-!
# Starting the service

The service reads its configuration from the variables, connects to the daemon and asks it for its
version. If any of this fails, the service ends with the failure and the causes below it; otherwise
it runs its monitor until it is interrupted.
-/

namespace Dockmaster

/-- How the service ends. -/
inductive Ending where
  /-- It fails: the texts of the failure and of the causes below it, outermost first. -/
  | failed (chain : List String)
  /-- It is interrupted. -/
  | interrupted
  deriving DecidableEq, Repr

namespace Ending

/-- The exit code. -/
def exitCode : Ending → Nat
  | .failed _ => 1
  | .interrupted => 0

/-- The texts that are reported. -/
def chain : Ending → List String
  | .failed chain => chain
  | .interrupted => []

end Ending

namespace Startup

/-- The variable that names the local daemon. -/
def localHostKey : String := "DOCKER_HOST"

/-- The configuration that the variables describe, and the daemon that it names. -/
def connect (pathExists : String → Bool) (env : EnvFile.Variables) :
    Except Ending (Config × Endpoint) :=
  match Config.ofLookup env with
  | .error e => .error (.failed [e.message])
  | .ok config =>
    match Endpoint.connect pathExists config (env localHostKey) with
    | .error fault => .error (.failed [fault.message])
    | .ok endpoint => .ok (config, endpoint)

/-- The peer after a check of the monitor. What the check finds has no consequences. -/
def perform (guard : Guard) (peer : ScriptedPeer) (check : Check) : ScriptedPeer :=
  (Operation.run guard (Transport.server ScriptedPeer.exchange) peer check.operation).1

/-- The peer after some checks, or fewer if its replies are used up. Checks take no time. -/
def watch (guard : Guard) : Nat → Monitor → ScriptedPeer → ScriptedPeer
  | 0, _, peer => peer
  | n + 1, monitor, peer =>
    if peer.replies.isEmpty then peer
    else
      let moment := min monitor.updates.next monitor.health.next
      let check := if monitor.updates.isDue moment then .updates else .health
      watch guard n (monitor.after check moment 0) (perform guard peer check)

/-- The monitor after the checks with which it begins. -/
def afterFirst (monitor : Monitor) : Monitor :=
  (monitor.after .updates monitor.now 0).after .health monitor.now 0

/-- Runs the service against a scripted peer. It is interrupted when the checks with which the
monitor begins are over and the replies of the peer are used up. Each check uses up a reply, so
there are no more checks than replies. -/
def run (config : Config) (peer : ScriptedPeer) : Ending × ScriptedPeer :=
  let (peer, exchanged) := peer.exchange Docker.versionMessage
  match Docker.versionOf exchanged with
  | .error fault => (.failed fault.chain, peer)
  | .ok _ =>
    let guard := Guard.ofList config.blacklist
    let peer := perform guard (perform guard peer .updates) .health
    (.interrupted, watch guard peer.replies.length (afterFirst (.ofConfig config)) peer)

end Startup

end Dockmaster
