import Dockmaster.Log.Stream

/-!
# Streams over feeds that are filled by hand

A live stream together with a feed into which frames and failures are put from outside, at any time
before it is ended. The pump does not run by itself: `settle` lets it run until it has to wait, so
that the stream can be looked at both before and after.
-/

namespace Dockmaster

/-- A live stream and its feed. -/
structure HandFed where
  /-- The stream. -/
  stream : LiveStream
  /-- What was put into the feed and not yet taken. -/
  pending : List FeedEvent
  /-- Whether the feed ends after what was put into it. -/
  ended : Bool
  /-- Whether the consumer still has the stream. -/
  attached : Bool
  /-- How many frames and failures were taken from the feed. -/
  taken : Nat

namespace HandFed

/-- A new stream over an empty feed; nothing if opening it panics. -/
def start? (capacity : Nat) : Option HandFed :=
  if LiveStream.canOpen capacity then some ⟨.opened capacity, [], false, true, 0⟩ else none

/-- The number of frames and failures. -/
def countItems (events : List FeedEvent) : Nat :=
  events.countP fun event => event ≠ .silence && event ≠ .nothing

/-- Whether something that is put into the feed still finds it. -/
def accepts (s : HandFed) : Bool := !s.ended && !s.stream.isClosed

/-- The stream after something is put into the feed. What is put into a feed that is dropped or
ended is lost. -/
def push (s : HandFed) (events : List FeedEvent) : HandFed :=
  if s.accepts then { s with pending := s.pending ++ events } else s

/-- The stream after its feed is ended. -/
def finish (s : HandFed) : HandFed := { s with ended := true }

/-- The stream after the pump has run until it has to wait. A feed that is ended and empty has its
end for the pump. -/
def settle (s : HandFed) : HandFed :=
  let (stream, left) := s.stream.pumpAll s.pending
  let taken := s.taken + (countItems s.pending - countItems left)
  if left.isEmpty && s.ended then { s with stream := stream.pumpStep .ended, pending := [], taken }
  else { s with stream, pending := left, taken }

/-- The stream after the consumer asks once. -/
def poll (s : HandFed) : HandFed × Polled :=
  let (stream, polled) := s.stream.next
  ({ s with stream }, polled)

/-- The stream after the consumer has waited for the next line until everything came to rest, and
what it got. -/
def waitNext (s : HandFed) : HandFed × Polled :=
  match s.poll with
  | (s, .pending) => s.settle.poll
  | answer => answer

/-- The stream after the consumer has gone on until it got a given number of items, or something
that is none, and what it got. -/
def takeUpTo : Nat → HandFed → HandFed × List Polled
  | 0, s => (s, [])
  | n + 1, s =>
    match s.waitNext with
    | (s, .item delivery) =>
      let (s, rest) := takeUpTo n s
      (s, .item delivery :: rest)
    | (s, polled) => (s, [polled])

/-- The stream after the consumer has waited for one line. A consumer that dropped the stream gets
nothing. -/
def next (s : HandFed) : HandFed × List Polled :=
  if s.attached then takeUpTo 1 s else (s, [])

/-- The stream after the consumer has taken everything that there is to take. No more items can come
than lie in the queue, in the hand of the pump and in the feed. -/
def drain (s : HandFed) : HandFed × List Polled :=
  if s.attached then takeUpTo (s.stream.queue.length + s.pending.length + 2) s else (s, [])

/-- The stream after the consumer closes it, if it still has it. -/
def close (s : HandFed) : HandFed :=
  if s.attached then { s with stream := s.stream.close } else s

/-- The stream after the consumer drops it, if it still has it. -/
def drop (s : HandFed) : HandFed :=
  if s.attached then { s with stream := s.stream.drop, attached := false } else s

end HandFed

end Dockmaster
