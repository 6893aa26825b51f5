import Dockmaster.Config
import Dockmaster.Monitor.Ticker
import Dockmaster.Operation.Basic

/-!
# The monitor

The monitor looks for newer images and for containers that are not running, each at intervals of its
own, until it is shut down. It does one thing at a time: whatever falls due while a check runs, the
shutdown included, waits for the end of the check. What is taken when more than one thing is due is
not fixed by the state of the monitor; `run` takes the shutdown before the checks.

Times are milliseconds since the monitor was started.
-/

namespace Dockmaster

/-- The checks of the monitor. -/
inductive Check where
  /-- Are there newer images? -/
  | updates
  /-- Are there containers that are not running? -/
  | health
  deriving DecidableEq, Repr

/-- The operation that a check is. -/
def Check.operation : Check → Operation
  | .updates => .checkForUpdates
  | .health => .health

/-- A monitor between two checks. -/
structure Monitor where
  /-- The time. -/
  now : Nat
  /-- The times of the checks for updates. -/
  updates : Ticker
  /-- The times of the health checks. -/
  health : Ticker

namespace Monitor

/-- The monitor at its start, with the periods of the two checks. -/
def start (updatePeriod healthPeriod : Nat) : Monitor :=
  ⟨0, .start updatePeriod, .start healthPeriod⟩

/-- The monitor at its start, with the intervals of a configuration. -/
def ofConfig (config : Config) : Monitor :=
  start (1000 * config.updateInterval) (1000 * config.healthInterval)

/-- The ticker of a check. -/
def ticker (m : Monitor) : Check → Ticker
  | .updates => m.updates
  | .health => m.health

/-- When something falls due: at once, or when the first of the tickers or the shutdown is due. -/
def wake (m : Monitor) (stop : Nat) : Nat :=
  max m.now (min stop (min m.updates.next m.health.next))

/-- Whether a check can be taken when something falls due. -/
def isReady (m : Monitor) (stop : Nat) (check : Check) : Bool :=
  (m.ticker check).isDue (m.wake stop)

/-- Whether the shutdown can be taken when something falls due. -/
def isStopping (m : Monitor) (stop : Nat) : Bool :=
  decide (stop ≤ m.wake stop)

/-- The monitor after a check that began at a time and took some milliseconds. -/
def after (m : Monitor) (check : Check) (began duration : Nat) : Monitor :=
  match check with
  | .updates => { m with now := began + duration, updates := m.updates.handle began }
  | .health => { m with now := began + duration, health := m.health.handle began }

/-- The check that is taken next if the shutdown is not due: of two, the one for updates. -/
def nextCheck (m : Monitor) (stop : Nat) : Check :=
  if m.isReady stop .updates then .updates else .health

/-- The time that is left to the tickers until the shutdown. -/
def timeLeft (m : Monitor) (stop : Nat) : Nat :=
  (stop - m.updates.next) + (stop - m.health.next)

/-- Before the shutdown is due, one of the checks is. -/
theorem isReady_nextCheck {m : Monitor} {stop : Nat} (h : m.isStopping stop = false) :
    m.isReady stop (m.nextCheck stop) = true := by
  simp only [isStopping, decide_eq_false_iff_not] at h
  simp only [nextCheck]
  split
  · assumption
  · rename_i hu
    simp only [isReady, Ticker.isDue, decide_eq_true_eq] at hu ⊢
    simp only [wake, ticker] at h hu ⊢
    omega

/-- A check that is taken before the shutdown is due uses up time. -/
theorem timeLeft_after {m : Monitor} {stop : Nat} {check : Check} (duration : Nat)
    (h : m.isStopping stop = false) (hready : m.isReady stop check = true) :
    (m.after check (m.wake stop) duration).timeLeft stop < m.timeLeft stop := by
  simp only [isStopping, isReady, Ticker.isDue, decide_eq_true_eq, decide_eq_false_iff_not]
    at h hready
  cases check with
  | updates =>
    have := m.updates.next_add_period_le_handle (m.wake stop)
    have := m.updates.period_pos
    simp only [after, timeLeft, ticker] at hready ⊢
    omega
  | health =>
    have := m.health.next_add_period_le_handle (m.wake stop)
    have := m.health.period_pos
    simp only [after, timeLeft, ticker] at hready ⊢
    omega

/-- Runs the monitor until the shutdown: the time at which it ends, and what the checks left. A
check changes the world and takes some milliseconds. -/
def run {σ : Type} (stop : Nat) (perform : Check → σ → σ × Nat) (m : Monitor) (world : σ) :
    Nat × σ :=
  if _h : m.isStopping stop = true then (m.wake stop, world)
  else
    let check := m.nextCheck stop
    let done := perform check world
    run stop perform (m.after check (m.wake stop) done.2) done.1
termination_by m.timeLeft stop
decreasing_by
  have h : m.isStopping stop = false := by simpa using _h
  exact timeLeft_after _ h (isReady_nextCheck h)

end Monitor

end Dockmaster
