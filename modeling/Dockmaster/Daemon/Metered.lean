import Dockmaster.Daemon.Scripted
import Dockmaster.Monitor.Basic
import Dockmaster.Operation.Basic

/-!
# A daemon that takes its time

A daemon in memory of which every request takes some time, with a count of the time and a record of
the requests. The checks of a monitor are performed against it one at a time.
-/

namespace Dockmaster

/-- A daemon with the time and the requests so far. -/
structure MeteredDaemon where
  /-- The daemon. -/
  daemon : ScriptedDaemon
  /-- The milliseconds that a request takes, by its kind. -/
  latency : Directory Nat
  /-- The milliseconds that all requests took. -/
  elapsed : Nat
  /-- The requests, the latest first. -/
  requests : List Request

namespace MeteredDaemon

/-- Serves a request. -/
def serve (metered : MeteredDaemon) (request : Request) : MeteredDaemon × Answer request :=
  let (daemon, answer) := metered.daemon.serve request
  let elapsed := metered.elapsed + (metered.latency.find? request.kind).getD 0
  ({ metered with daemon, elapsed, requests := request :: metered.requests }, answer)

/-- The daemon after a check, and the milliseconds that the check took. What the check finds has no
consequences. -/
def perform (guard : Guard) (check : Check) (metered : MeteredDaemon) : MeteredDaemon × Nat :=
  let (after, _) := Operation.run guard serve metered check.operation
  (after, after.elapsed - metered.elapsed)

/-- Runs a monitor until its shutdown: the time at which it ends, and the daemon afterwards. -/
def runMonitor (guard : Guard) (stop : Nat) (monitor : Monitor) (metered : MeteredDaemon) :
    Nat × MeteredDaemon :=
  monitor.run stop (perform guard) metered

end MeteredDaemon

end Dockmaster
