import Dockmaster.Error
import Dockmaster.Log.Feed

/-!
# Live log streams

A live stream carries the lines of a feed to a consumer. Its pump takes the frames from the feed one
at a time, makes lines of them and puts the lines into a queue of bounded length; the consumer takes
them out. A failure of the feed is the last thing that the consumer gets.

The stream owns the feed and drops it once: when the feed fails or ends, or when the consumer closes
or drops the stream, whichever comes first. The pump drops the feed before it passes the failure on
and before it stops, so that a consumer who sees the end of the stream also finds the feed dropped.

A stream is opened in two steps: its pump is spawned (`start`), and then the handle of the pump
arrives (`attach`). The pump may run in between, on another thread. If it has dropped the feed by
then, it is aborted, and what it has in hand may be lost.
-/

namespace Dockmaster

/-- What the consumer of a stream gets. -/
abbrev Delivery := Except ServiceError LogLine

/-- What a feed has for whoever asks it. -/
inductive Arrival where
  /-- Nothing yet. -/
  | waiting
  /-- A frame or a failure. -/
  | item (item : Except DaemonFault Frame)
  /-- The end. -/
  | ended

/-- What the pump of a stream is at. -/
inductive Pump where
  /-- It waits for the next item of the feed. -/
  | reading
  /-- It waits until there is room for a line in the queue. -/
  | sending (line : LogLine)
  /-- It waits until there is room for an error in the queue. -/
  | failing (e : ServiceError)
  /-- It is over. -/
  | stopped
  deriving DecidableEq

/-- What the consumer finds when it asks for the next line. -/
inductive Polled where
  /-- A line, or the error that the feed ended with. -/
  | item (delivery : Delivery)
  /-- The end of the stream. -/
  | ended
  /-- Nothing yet. -/
  | pending

/-- A live stream. -/
structure LiveStream where
  /-- How many lines the queue can hold. -/
  capacity : Nat
  /-- What the consumer can take, the oldest first. -/
  queue : List Delivery
  /-- The pump. -/
  pump : Pump
  /-- How often the feed was dropped. -/
  drops : Nat
  /-- Whether the feed is dropped. -/
  isClosed : Bool
  /-- Whether the consumer closed the stream. -/
  cancelled : Bool
  /-- Whether the pump was aborted while the stream was opened. -/
  aborted : Bool

namespace LiveStream

/-- The length of the longest queue that can be made: the places in a queue are counted in 61
bits. -/
def maxCapacity : Nat := 2305843009213693951

/-- Whether a stream can be opened with a queue of some length. If not, opening it panics. -/
def canOpen (capacity : Nat) : Bool := decide (1 ≤ capacity ∧ capacity ≤ maxCapacity)

/-- A new stream, whose pump is spawned. -/
def start (capacity : Nat) : LiveStream where
  capacity := capacity
  queue := []
  pump := .reading
  drops := 0
  isClosed := false
  cancelled := false
  aborted := false

/-- The stream after the feed is dropped, if it was not dropped before. -/
def release (s : LiveStream) : LiveStream :=
  if s.isClosed then s else { s with isClosed := true, drops := s.drops + 1 }

/-- The stream after the handle of its pump arrives. If the feed is dropped by then, the pump is
aborted. -/
def attach (s : LiveStream) : LiveStream := if s.isClosed then { s with aborted := true } else s

/-- A stream that is opened before its pump takes a step. -/
def opened (capacity : Nat) : LiveStream := (start capacity).attach

/-- Whether there is room in the queue. -/
def hasRoom (s : LiveStream) : Bool := decide (s.queue.length < s.capacity)

/-! ### The pump -/

/-- The stream after the pump takes what the feed has for it. A line without text is passed over. -/
def take (s : LiveStream) : Arrival → LiveStream
  | .waiting => s
  | .item (.ok frame) =>
    let line := LogLine.ofFrame frame
    if line.text = "" then s else { s with pump := .sending line }
  | .item (.error fault) => { s.release with pump := .failing (.ofFault fault) }
  | .ended => { s.release with pump := .stopped }

/-- The stream after the pump puts something into the queue, if there is room, and goes on in some
way. -/
def send (s : LiveStream) (delivery : Delivery) (next : Pump) : LiveStream :=
  if s.hasRoom then { s with queue := s.queue ++ [delivery], pump := next } else s

/-- The stream after a step of the pump. What the feed has counts only when the pump is reading. -/
def pumpStep (s : LiveStream) (arrival : Arrival) : LiveStream :=
  match s.pump with
  | .reading => s.take arrival
  | .sending line => s.send (.ok line) .reading
  | .failing e => s.send (.error e) .stopped
  | .stopped => s

/-- The stream after its pump is taken down, if it was aborted. One that is running when it is
aborted still goes on until it has to wait; what it has in hand then is gone. -/
def halt (s : LiveStream) : LiveStream := if s.aborted then { s with pump := .stopped } else s

/-! ### The consumer -/

/-- The stream after the consumer asks for the next line, and what it finds. A consumer that closed
the stream gets nothing more, whatever the queue holds. -/
def next (s : LiveStream) : LiveStream × Polled :=
  if s.cancelled then (s, .ended)
  else
    match s.queue with
    | delivery :: rest => ({ s with queue := rest }, .item delivery)
    | [] => (s, if s.pump = .stopped then .ended else .pending)

/-- The stream after the consumer drops it. -/
def drop (s : LiveStream) : LiveStream := { s.release with pump := .stopped }

/-- The stream after the consumer closes it. -/
def close (s : LiveStream) : LiveStream := { s.drop with cancelled := true }

/-! ### Runs of the pump -/

/-- The stream after the pump has passed on what it had in hand, if there is room for it. -/
def flush (s : LiveStream) : LiveStream :=
  if s.pump = .reading then s else s.pumpStep .waiting

/-- The stream after the pump has taken as much as it can of what has happened on the feed, and what
it left. Nothing is taken after the feed fell silent. -/
def pumpAll (s : LiveStream) : List FeedEvent → LiveStream × List FeedEvent
  | [] => (s.flush, [])
  | event :: rest =>
    if s.flush.pump = .reading then
      match event with
      | .frame frame => pumpAll (s.flush.pumpStep (.item (.ok frame))) rest
      | .fault fault => pumpAll (s.flush.pumpStep (.item (.error fault))) rest
      | .silence => (s.flush, event :: rest)
      | .nothing => pumpAll s.flush rest
    else (s.flush, event :: rest)

/-- The stream after the consumer has taken all that the queue holds. -/
def takeQueue (s : LiveStream) : LiveStream × List Delivery :=
  ({ s with queue := [] }, s.queue)

/-- What a consumer gets who takes every line at once and goes on to the end, and after how many
milliseconds; nothing if the feed falls silent. -/
def readToEnd (s : LiveStream) (elapsed : Nat) (received : List Delivery) :
    Feed → Option (Nat × List Delivery)
  | [] => some (elapsed, received ++ (s.pumpStep .ended).queue)
  | ⟨delay, event⟩ :: rest =>
    match event with
    | .frame frame =>
      let (s, items) := ((s.pumpStep (.item (.ok frame))).flush).takeQueue
      readToEnd s (elapsed + delay) (received ++ items) rest
    | .fault fault =>
      let (_, items) := ((s.pumpStep (.item (.error fault))).flush).takeQueue
      some (elapsed + delay, received ++ items)
    | .silence => none
    | .nothing => readToEnd s (elapsed + delay) received rest

end LiveStream

end Dockmaster
