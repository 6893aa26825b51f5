import Dockmaster.Log.Stream
import Mathlib.Data.List.Induction

/-!
# Live streams in use

A session is a live stream together with its feed and its consumer.  The feed is a `Source`: it may
end, fail, fall silent or go on for ever.  The pump takes one step at a time from the moment it is
spawned.  The consumer has the stream as soon as the handle of the pump has arrived, and then asks,
closes the stream and drops it whenever it likes.  A pump that was aborted is taken down at any time
after that.  A run is any list of these events, so a property of all runs holds for every schedule.

* `Source.deliveries k` is what the first `k` events of a source amount to for the consumer: their
  lines, without the empty ones, up to and including the first failure.
* `Source.reaches k` says that the source goes on up to the event at `k`; nothing is delivered of
  what it does not reach (`Source.deliveries_eq_of_not_reaches`).
* `Session.step` is one event of a session, and `Session.after` a run.
-/

namespace Dockmaster

/-! ### Sources -/

namespace FeedEvent

/-- Whether the pump finds something after an event. -/
def goesOn : FeedEvent → Bool
  | .frame _ | .nothing => true
  | .fault _ | .silence => false

/-- What an event amounts to for the consumer. -/
def delivery? : FeedEvent → Option Delivery
  | .frame output =>
    let line := LogLine.ofFrame output
    if line.text = "" then none else some (.ok line)
  | .fault failure => some (.error (.ofFault failure))
  | .silence | .nothing => none

theorem delivery?_frame (output : Frame) : (frame output).delivery? =
    if (LogLine.ofFrame output).text = "" then none else some (.ok (LogLine.ofFrame output)) := rfl

/-- What an event is for the pump. -/
def arrival : FeedEvent → Arrival
  | .frame output => .item (.ok output)
  | .fault failure => .item (.error failure)
  | .silence | .nothing => .waiting

end FeedEvent

/-- What happens on a feed, one event after another, and nothing from its end on.  A feed that falls
silent or never ends has no end. -/
abbrev Source := Nat → Option FeedEvent

namespace Source

/-- The source of a feed. -/
def ofFeed (feed : Feed) : Source := fun i => feed[i]?.map (·.event)

variable (source : Source)

/-- Whether the source goes on up to an event. -/
def reaches : Nat → Bool
  | 0 => true
  | k + 1 => reaches k && (source k).any (·.goesOn)

/-- What is to be delivered of the first events of a source. -/
def deliveries : Nat → List Delivery
  | 0 => []
  | k + 1 => deliveries k ++ if source.reaches k then ((source k).bind (·.delivery?)).toList else []

variable {source}

theorem reaches_of_le {j k : Nat} (h : source.reaches k = true) (hjk : j ≤ k) :
    source.reaches j = true := by
  induction hjk with
  | refl => exact h
  | step _ ih => exact ih (Bool.and_eq_true_iff.mp h).1

theorem deliveries_succ {k : Nat} {event : FeedEvent} (h : source.reaches k = true)
    (hevent : source k = some event) :
    source.deliveries (k + 1) = source.deliveries k ++ event.delivery?.toList := by
  rw [deliveries, if_pos h, hevent, Option.bind_some]

theorem reaches_succ {k : Nat} {event : FeedEvent} (h : source.reaches k = true)
    (hevent : source k = some event) : source.reaches (k + 1) = event.goesOn := by
  rw [reaches, h, hevent, Bool.true_and, Option.any_some]

/-- **What a source does not reach adds nothing.** -/
theorem deliveries_eq_of_not_reaches {j k : Nat} (h : source.reaches k = false) (hkj : k ≤ j) :
    source.deliveries j = source.deliveries k := by
  induction hkj with
  | refl => rfl
  | @step j hkj ih =>
    have hj : ¬ source.reaches j = true := fun hj => by
      rw [reaches_of_le hj hkj] at h
      cases h
    rw [deliveries, if_neg hj, List.append_nil, ih]

/-- Nothing is delivered after the end of a source. -/
theorem deliveries_eq_of_ended {j k : Nat} (h : source k = none) (hkj : k ≤ j) :
    source.deliveries j = source.deliveries k := by
  have hnext : source.reaches (k + 1) = false := by
    rw [reaches, h, Option.any_none, Bool.and_false]
  have hsame : source.deliveries (k + 1) = source.deliveries k := by
    rw [deliveries, h, Option.bind_none, Option.toList_none, ite_self, List.append_nil]
  rcases Nat.eq_or_lt_of_le hkj with rfl | hlt
  · rfl
  · rw [deliveries_eq_of_not_reaches hnext hlt, hsame]

end Source

/-! ### What can change -/

namespace LiveStream

theorem release_eq (s : LiveStream) :
    ∃ drops isClosed, s.release = { s with drops, isClosed } := by
  unfold release
  split
  · exact ⟨_, _, rfl⟩
  · exact ⟨_, _, rfl⟩

theorem take_eq (s : LiveStream) (arrival : Arrival) :
    ∃ pump drops isClosed, s.take arrival = { s with pump, drops, isClosed } := by
  obtain ⟨drops, isClosed, hrelease⟩ := s.release_eq
  unfold take
  split
  · exact ⟨_, _, _, rfl⟩
  · dsimp only
    split_ifs
    · exact ⟨_, _, _, rfl⟩
    · exact ⟨_, _, _, rfl⟩
  · rw [hrelease]
    exact ⟨_, _, _, rfl⟩
  · rw [hrelease]
    exact ⟨_, _, _, rfl⟩

theorem send_eq (s : LiveStream) (delivery : Delivery) (next : Pump) :
    ∃ queue pump, s.send delivery next = { s with queue, pump } := by
  unfold send
  split_ifs
  · exact ⟨_, _, rfl⟩
  · exact ⟨_, _, rfl⟩

/-- **A step of the pump** leaves the capacity and the marks of the stream as they are. -/
theorem pumpStep_eq (s : LiveStream) (arrival : Arrival) : ∃ queue pump drops isClosed,
    s.pumpStep arrival = { s with queue, pump, drops, isClosed } := by
  have hsend (delivery : Delivery) (next : Pump) : ∃ queue pump drops isClosed,
      s.send delivery next = { s with queue, pump, drops, isClosed } := by
    obtain ⟨queue, pump, hsend⟩ := s.send_eq delivery next
    exact ⟨queue, pump, s.drops, s.isClosed, hsend⟩
  unfold pumpStep
  split
  · obtain ⟨pump, drops, isClosed, htake⟩ := s.take_eq arrival
    exact ⟨s.queue, pump, drops, isClosed, htake⟩
  · exact hsend _ _
  · exact hsend _ _
  · exact ⟨_, _, _, _, rfl⟩

theorem next_eq (s : LiveStream) : ∃ queue, s.next.1 = { s with queue } := by
  unfold next
  split
  · exact ⟨_, rfl⟩
  · split
    · exact ⟨_, rfl⟩
    · exact ⟨_, rfl⟩

/-- The arrival of the handle leaves nothing behind but a mark. -/
theorem attach_eq (s : LiveStream) : ∃ aborted, s.attach = { s with aborted } := by
  unfold attach
  split
  · exact ⟨_, rfl⟩
  · exact ⟨_, rfl⟩

/-- An aborted pump takes nothing with it but what it has in hand. -/
theorem halt_eq (s : LiveStream) : ∃ pump, s.halt = { s with pump } := by
  unfold halt
  split
  · exact ⟨_, rfl⟩
  · exact ⟨_, rfl⟩

end LiveStream

/-! ### The pump -/

namespace LiveStream

variable {s : LiveStream}

/-- A pump that reads takes what the feed has for it. -/
theorem pumpStep_of_reading (reading : s.pump = .reading) (arrival : Arrival) :
    s.pumpStep arrival = s.take arrival := by
  unfold pumpStep
  rw [reading]

/-- A pump that has stopped does nothing. -/
theorem pumpStep_of_stopped (stopped : s.pump = .stopped) (arrival : Arrival) :
    s.pumpStep arrival = s := by
  unfold pumpStep
  rw [stopped]

/-- A consumer that sees the end of a stream it did not close has emptied its queue, and its pump is
over. -/
theorem idle_of_ended (uncancelled : s.cancelled = false) (ended : s.next.2 = .ended) :
    s.queue = [] ∧ s.pump = .stopped := by
  unfold next at ended
  rw [if_neg (by rw [uncancelled]; exact nofun)] at ended
  split at ended
  · cases ended
  · rename_i hqueue
    split_ifs at ended with hpump
    exact ⟨hqueue, hpump⟩

end LiveStream

/-! ### Sessions -/

/-- What the consumer gets when it asks. -/
def Polled.delivery? : Polled → Option Delivery
  | .item delivery => some delivery
  | .ended | .pending => none

/-- Who has a stream. -/
inductive Holder where
  /-- The call that opens it: the pump is spawned, and its handle has not arrived. -/
  | opening
  /-- The consumer. -/
  | consumer
  /-- Nobody: the consumer dropped it. -/
  | nobody
  deriving DecidableEq

/-- A live stream in use. -/
structure Session where
  /-- The stream. -/
  stream : LiveStream
  /-- How many events of the feed the pump is past. -/
  position : Nat
  /-- What the consumer got, the oldest first. -/
  received : List Delivery
  /-- Who has the stream. -/
  holder : Holder

namespace Session

/-- Whether the consumer has the stream. -/
def attached (s : Session) : Bool := decide (s.holder = .consumer)

theorem holder_ne_of_attached {s : Session} (h : s.attached = true) : s.holder ≠ .nobody := by
  rw [of_decide_eq_true h]
  exact nofun

/-- What can happen to a session. -/
inductive Event where
  /-- The pump takes a step. -/
  | pump
  /-- A pump that was aborted is taken down. -/
  | halt
  /-- The handle of the pump arrives, and the consumer gets the stream. -/
  | attach
  /-- The consumer asks for the next line. -/
  | poll
  /-- The consumer closes the stream. -/
  | close
  /-- The consumer drops the stream. -/
  | drop
  deriving DecidableEq

/-- A new session: the pump is spawned. -/
def start (capacity : Nat) : Session := ⟨.start capacity, 0, [], .opening⟩

variable (source : Source)

/-- The session after the pump looks what the feed has for it.  It never gets past the silence or
the end. -/
def read (s : Session) : Session :=
  match source s.position with
  | none => { s with stream := s.stream.pumpStep .ended }
  | some .silence => { s with stream := s.stream.pumpStep .waiting }
  | some event =>
    { s with stream := s.stream.pumpStep event.arrival, position := s.position + 1 }

/-- The session after an event.  The handle of the pump arrives once.  A consumer that has no stream
has nothing to ask or to close. -/
def step (s : Session) : Event → Session
  | .pump =>
    if s.stream.pump = .reading then s.read source
    else { s with stream := s.stream.pumpStep .waiting }
  | .halt => { s with stream := s.stream.halt }
  | .attach =>
    if s.holder = .opening then { s with stream := s.stream.attach, holder := .consumer } else s
  | .poll =>
    if s.attached then
      let (stream, polled) := s.stream.next
      { s with stream, received := s.received ++ polled.delivery?.toList }
    else s
  | .close => if s.attached then { s with stream := s.stream.close } else s
  | .drop => if s.attached then { s with stream := s.stream.drop, holder := .nobody } else s

/-- The session after some events. -/
def after (s : Session) (events : List Event) : Session := events.foldl (step source) s

theorem after_append (s : Session) (first second : List Event) :
    s.after source (first ++ second) = (s.after source first).after source second :=
  List.foldl_append ..

theorem after_snoc (s : Session) (past : List Event) (event : Event) :
    s.after source (past ++ [event]) = (s.after source past).step source event :=
  after_append ..

end Session

end Dockmaster
