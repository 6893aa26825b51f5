/-!
# Shutting down

The service shuts down when a signal reaches it. If the signal cannot be listened for, it goes on
running.
-/

namespace Dockmaster

/-- What becomes of listening for a signal: after so many milliseconds it arrives, or listening
fails. -/
structure SignalListener where
  /-- The milliseconds. -/
  delay : Nat
  /-- Whether listening fails. -/
  fails : Bool
  deriving DecidableEq, Repr

namespace SignalListener

/-- The time of the shutdown, if there is one. -/
def shutdown? (listener : SignalListener) : Option Nat :=
  if listener.fails then none else some listener.delay

/-- Whether the shutdown comes within a time. -/
def shutsDownWithin (listener : SignalListener) (limit : Nat) : Bool :=
  listener.shutdown?.any (· ≤ limit)

end SignalListener

end Dockmaster
