import Dockmaster.Error
import Dockmaster.Log.Feed

/-!
# Historical logs

The last lines of a log as one text. A read takes all frames of a feed up to its end and decodes
their bytes together. A read that is interrupted, by the daemon or by its deadline, yields a fixed
text in place of a part of the log; every other failure is reported.
-/

namespace Dockmaster

/-- The most lines that may be asked for. -/
def maxTail : Nat := 10000

/-- What stands in place of a log that could not be read to its end in time. -/
def logsUnavailable : String := "Error fetching logs"

/-- The number of lines to ask for, if it is within its range. -/
def checkTail (lines : Nat) : Except ServiceError Nat :=
  if 1 ≤ lines ∧ lines ≤ maxTail then .ok lines
  else .error <| .invalidArgument <|
    "tail must be between 1 and " ++ toString maxTail ++ ", got " ++ toString lines

/-- A historical read that is under way or over. -/
structure LogRead where
  /-- The bytes so far. -/
  bytes : List UInt8 := []
  /-- The result, once there is one. -/
  result : Option (Except ServiceError String) := none
  /-- How often the feed was dropped. -/
  drops : Nat := 0

namespace LogRead

/-- What a read meets with. -/
inductive Event where
  /-- A frame of the feed. -/
  | frame (frame : Frame)
  /-- A failure of the feed. -/
  | fault (fault : DaemonFault)
  /-- The end of the feed. -/
  | ended
  /-- The deadline. -/
  | expired

/-- The read with a result; the feed is not needed any more. -/
def finish (read : LogRead) (result : Except ServiceError String) : LogRead :=
  { read with result := some result, drops := read.drops + 1 }

/-- The result of a read that an error ends. -/
def resultOfError : ServiceError → Except ServiceError String
  | .interrupted _ => .ok logsUnavailable
  | e => .error e

/-- The read after what it meets with. A read that has its result takes no notice. -/
def step (read : LogRead) (event : Event) : LogRead :=
  match read.result with
  | some _ => read
  | none =>
    match event with
    | .frame frame => { read with bytes := read.bytes ++ frame.bytes }
    | .fault fault => read.finish (resultOfError (.ofFault fault))
    | .ended => read.finish (.ok (Text.Utf8.decode read.bytes))
    | .expired => read.finish (resultOfError (.interrupted "log read exceeded its deadline"))

/-- Whether a time is after the deadline. What happens at the deadline itself still counts. -/
def isLate (deadline : Option Nat) (time : Nat) : Bool :=
  deadline.any (· < time)

/-- The read that gives up at its deadline, if it has one, and the time of that. -/
def expire (read : LogRead) (deadline : Option Nat) : Option (Nat × LogRead) :=
  deadline.map fun time => (time, read.step .expired)

/-- The read that follows a feed from some time on until it has its result, and the time of that;
nothing if the feed falls silent and there is no deadline. Times are milliseconds since the read
began. -/
def follow (deadline : Option Nat) (read : LogRead) (time : Nat) : Feed → Option (Nat × LogRead)
  | [] => some (time, read.step .ended)
  | ⟨delay, event⟩ :: rest =>
    if isLate deadline (time + delay) then read.expire deadline
    else
      match event with
      | .frame frame => follow deadline (read.step (.frame frame)) (time + delay) rest
      | .fault fault => some (time + delay, read.step (.fault fault))
      | .silence => read.expire deadline
      | .nothing => follow deadline read (time + delay) rest

/-- The read of a whole feed. -/
def ofFeed (deadline : Option Nat) (feed : Feed) : Option (Nat × LogRead) :=
  follow deadline {} 0 feed

/-- The state after the last lines of a log are read, and the read as of `ofFeed`. The feed is
opened for as many lines as are asked for; for a number out of range none is. -/
def lastLines {σ : Type} (openFeed : σ → LogQuery → σ × Feed) (deadline : Option Nat)
    (lines : Nat) (s : σ) : σ × Option (Nat × LogRead) :=
  match checkTail lines with
  | .error e => (s, some (0, { result := some (.error e) }))
  | .ok lines =>
    let (s, feed) := openFeed s (.last lines)
    (s, ofFeed deadline feed)

end LogRead

end Dockmaster
