import Dockmaster.Log.History
import Dockmaster.Log.Settings
import Dockmaster.Log.Stream
import Dockmaster.Operation.Basic

/-!
# Jobs

What a caller of the service can have done: an operation, the last lines of a log as one text, or a
live log stream read to its end.
-/

namespace Dockmaster

/-- What is to be done. -/
inductive Job where
  /-- Carry out an operation. -/
  | operation (op : Operation)
  /-- Read the last lines of a log. -/
  | getLogs (id : String) (tail : Nat)
  /-- Open a live log stream and read it to its end. -/
  | streamAll (id : String) (follow : Bool)

/-- What a job comes to. -/
inductive Result where
  /-- The outcome of an operation. -/
  | outcome (outcome : Outcome)
  /-- A log as one text. -/
  | text (text : Except ServiceError String)
  /-- The lines of a live stream. -/
  | lines (deliveries : List Delivery)
  /-- Nothing: the job panicked. -/
  | panicked

/-- A log that was read. -/
structure Reading where
  /-- The milliseconds that it took. -/
  elapsed : Nat
  /-- What it came to. -/
  result : Result
  /-- How often the feed was dropped. -/
  drops : Nat

namespace Reading

/-- The last lines of a log that were read in some time. -/
def ofLastLines : Nat × LogRead → Option Reading
  | (elapsed, read) => read.result.map fun result => ⟨elapsed, .text result, read.drops⟩

/-- A live stream over a feed that is read to its end; nothing if it never ends. -/
def ofLiveLines (settings : LogSettings) (feed : Feed) : Option Reading :=
  ((LiveStream.opened settings.capacity).readToEnd 0 [] feed).map fun (elapsed, deliveries) =>
    ⟨elapsed, .lines deliveries, 1⟩

/-- A live stream that is opened over a feed and read to its end; nothing if it never ends. Where
opening it panics, nothing is read, and the feed is dropped. -/
def ofOpened (settings : LogSettings) (feed : Feed) : Option Reading :=
  if LiveStream.canOpen settings.capacity then ofLiveLines settings feed
  else some ⟨0, .panicked, 1⟩

end Reading

end Dockmaster
