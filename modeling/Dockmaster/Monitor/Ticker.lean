/-!
# Tickers

A ticker is due at regular times, the first of them zero. A tick that is handled at its time, or a
little later, leaves the times of the following ticks as they are; one that is handled later than
that moves them, so that the next is due one period after the handling. Times are milliseconds.
-/

namespace Dockmaster

/-- A ticker. -/
structure Ticker where
  /-- The time at which it is due next. -/
  next : Nat
  /-- The time between two ticks. -/
  period : Nat
  /-- Time passes between two ticks. -/
  period_pos : 0 < period

namespace Ticker

/-- How late a tick may be handled without moving the following ones. -/
def tolerance : Nat := 5

/-- The ticker that is due at once. A period of zero counts as one millisecond. -/
def start (period : Nat) : Ticker :=
  ⟨0, max 1 period, Nat.lt_of_lt_of_le Nat.one_pos (Nat.le_max_left _ _)⟩

/-- Whether a tick is due. -/
def isDue (ticker : Ticker) (now : Nat) : Bool := decide (ticker.next ≤ now)

/-- The ticker after a tick is handled. -/
def handle (ticker : Ticker) (now : Nat) : Ticker :=
  let base := if ticker.next + tolerance < now then now else ticker.next
  { ticker with next := base + ticker.period }

/-- Handling a tick moves the ticker ahead by one period at least. -/
theorem next_add_period_le_handle (ticker : Ticker) (now : Nat) :
    ticker.next + ticker.period ≤ (ticker.handle now).next := by
  simp only [handle]
  split <;> omega

/-- Between the handling of a tick and the next tick there is one period, less the tolerance. -/
theorem add_period_le_next_handle (ticker : Ticker) (now : Nat) :
    now + ticker.period ≤ (ticker.handle now).next + tolerance := by
  simp only [handle]
  split <;> omega

/-- A tick that is handled at its time leaves the times of the following ticks as they are. -/
theorem next_handle_next (ticker : Ticker) :
    (ticker.handle ticker.next).next = ticker.next + ticker.period := by
  simp only [handle]
  split <;> omega

end Ticker

end Dockmaster
