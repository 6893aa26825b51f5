import Dockmaster.Fault
import Dockmaster.Log.Line

/-!
# Log feeds

A feed brings the log of one container, frame after frame. It may bring a failure in place of a
frame, it may fall silent for ever, and it may take its time before each of these.
-/

namespace Dockmaster

/-- What happens on a feed. -/
inductive FeedEvent where
  /-- A frame. -/
  | frame (frame : Frame)
  /-- A failure. -/
  | fault (fault : DaemonFault)
  /-- Silence for ever. -/
  | silence
  /-- Nothing at all, only time passes. -/
  | nothing
  deriving DecidableEq, Repr

/-- Something that happens on a feed some milliseconds after what happened before. -/
structure TimedEvent where
  /-- The milliseconds. -/
  delay : Nat
  /-- What happens. -/
  event : FeedEvent
  deriving DecidableEq, Repr

/-- A feed: what happens on it one after another. After the last event the feed ends. -/
abbrev Feed := List TimedEvent

/-- What the daemon is asked when a feed is opened. Both output streams are wanted, and there are no
bounds on the time of the lines. -/
structure LogQuery where
  /-- Whether the feed goes on with lines that are written later. -/
  follow : Bool
  /-- Whether each line begins with its time. -/
  timestamps : Bool
  /-- How many of the last lines are wanted: a number, or a word for all. -/
  tail : String
  deriving DecidableEq, Repr

/-- What is asked for the last lines of a log. -/
def LogQuery.last (lines : Nat) : LogQuery where
  follow := false
  timestamps := false
  tail := toString lines

/-- What is asked for a live log. -/
def LogQuery.live (follow : Bool) : LogQuery where
  follow := follow
  timestamps := true
  tail := "all"

end Dockmaster
