import Dockmaster.Proofs.Log.Delivery

/-!
# A slow consumer slows the feed down

The pump of a live stream does not read ahead: what it took from the feed and the consumer has not
got yet lies in the queue, which is bounded, or is the one item that the pump has in hand.  So the
feed is at most one item more than the capacity ahead of the consumer (`ahead_le`), and there are
schedules in which it is (`ahead_attained`).  Frames without text do not count: they are passed over
and take up no room.

`LiveStream.held` is what was taken and not handed over.  The pump holds one item more for each that
it takes, and only the consumer makes it less.  `Session.Paced` is the invariant of a session; once
the consumer has closed or dropped the stream, or an aborted pump was taken down, less may be held,
but nothing is taken either.
-/

namespace Dockmaster

/-- Whether what a feed has is a failure or a frame with some text. -/
def Arrival.carries : Arrival → Bool
  | .item (.ok frame) => (LogLine.ofFrame frame).text ≠ ""
  | .item (.error _) => true
  | .waiting | .ended => false

/-! ### Streams -/

namespace LiveStream

/-- How many items the stream has taken from the feed and not handed over. -/
def held (s : LiveStream) : Nat := s.queue.length + s.pump.inHand.length

/-- Whether the queue holds no more than it can. -/
def Fits (s : LiveStream) : Prop := s.queue.length ≤ s.capacity

theorem length_inHand_le (pump : Pump) : pump.inHand.length ≤ 1 := by
  cases pump with
  | reading | stopped => exact Nat.zero_le 1
  | sending | failing => exact Nat.le_refl 1

theorem Fits.held_le {s : LiveStream} (h : s.Fits) : s.held ≤ s.capacity + 1 :=
  Nat.add_le_add h (length_inHand_le s.pump)

section Steps

variable {s : LiveStream}

/-- **A pump that reads holds what it takes**, unless there is nothing in it. -/
theorem held_take (reading : s.pump = .reading) (arrival : Arrival) :
    (s.take arrival).held = s.held + arrival.carries.toNat := by
  have hheld : s.held = s.queue.length := by rw [held, reading]; rfl
  rw [hheld]
  unfold take held
  cases arrival with
  | waiting => rw [reading]; rfl
  | ended => rw [queue_release]; rfl
  | item item =>
    cases item with
    | error fault => rw [queue_release]; rfl
    | ok frame =>
      dsimp only
      split_ifs with hempty
      · rw [reading, Arrival.carries, decide_eq_false (not_not.mpr hempty)]
        rfl
      · rw [Arrival.carries, decide_eq_true hempty]
        rfl

/-- A pump that reads leaves the queue alone. -/
theorem frame_take (arrival : Arrival) :
    (s.take arrival).queue = s.queue ∧ (s.take arrival).capacity = s.capacity := by
  obtain ⟨pump, drops, isClosed, htake⟩ := s.take_eq arrival
  rw [htake]
  exact ⟨rfl, rfl⟩

theorem Fits.take (h : s.Fits) (arrival : Arrival) : (s.take arrival).Fits := by
  obtain ⟨hqueue, hcapacity⟩ := frame_take (s := s) arrival
  unfold Fits
  rw [hqueue, hcapacity]
  exact h

/-- What the pump has in hand goes into the queue only if there is room for it. -/
theorem Fits.send (h : s.Fits) (delivery : Delivery) (next : Pump) :
    (s.send delivery next).Fits := by
  unfold LiveStream.send
  split_ifs with hroom
  · unfold Fits
    rw [List.length_append, List.length_singleton]
    exact of_decide_eq_true hroom
  · exact h

theorem held_send {delivery : Delivery} {next : Pump} (hhand : s.pump.inHand = [delivery])
    (hnext : next.inHand = []) : (s.send delivery next).held = s.held := by
  unfold send
  split_ifs
  · simp only [held, hhand, hnext, List.length_append, List.length_singleton, List.length_nil,
      Nat.add_zero]
  · rfl

theorem capacity_send (delivery : Delivery) (next : Pump) :
    (s.send delivery next).capacity = s.capacity := by
  obtain ⟨queue, pump, hsend⟩ := s.send_eq delivery next
  rw [hsend]

/-- **A pump that does not read** moves what it has in hand, and takes nothing. -/
theorem Fits.pumpStep_of_ne (h : s.Fits) (busy : s.pump ≠ .reading) (arrival : Arrival) :
    (s.pumpStep arrival).Fits ∧ (s.pumpStep arrival).held = s.held ∧
      (s.pumpStep arrival).capacity = s.capacity := by
  unfold pumpStep
  cases hpump : s.pump with
  | reading => exact absurd hpump busy
  | sending line =>
    exact ⟨h.send _ _, held_send (by rw [hpump]; rfl) rfl, capacity_send _ _⟩
  | failing e =>
    exact ⟨h.send _ _, held_send (by rw [hpump]; rfl) rfl, capacity_send _ _⟩
  | stopped => exact ⟨h, rfl, rfl⟩

/-- **What the consumer gets** is not held any more, and there is room for something else. -/
theorem Fits.next (h : s.Fits) :
    s.next.1.Fits ∧ s.next.2.delivery?.toList.length + s.next.1.held = s.held ∧
      s.next.1.capacity = s.capacity := by
  obtain ⟨-, hnext⟩ | ⟨delivery, rest, hqueue, hnext⟩ | ⟨-, hnext⟩ | hnext := s.next_cases
  · rw [hnext]
    exact ⟨h, Nat.zero_add _, rfl⟩
  · have hlength : s.queue.length = rest.length + 1 := by rw [hqueue, List.length_cons]
    have hfits : s.queue.length ≤ s.capacity := h
    rw [hnext]
    refine ⟨?_, ?_, rfl⟩
    · show rest.length ≤ s.capacity
      omega
    · show 1 + (rest.length + s.pump.inHand.length) = s.queue.length + s.pump.inHand.length
      omega
  · rw [hnext]
    exact ⟨h, Nat.zero_add _, rfl⟩
  · rw [hnext]
    exact ⟨h, Nat.zero_add _, rfl⟩

end Steps

end LiveStream

/-! ### Sessions -/

namespace Session

/-- **The invariant of a session**, of which the feed has so far yielded so many items that carry
something. -/
inductive Paced (capacity taken : Nat) (s : Session) : Prop
  /-- The stream holds all that was taken and not handed over. -/
  | going (room : s.stream.capacity = capacity) (fits : s.stream.Fits)
      (accounts : s.received.length + s.stream.held = taken)
  /-- The pump is over: nothing more is taken. -/
  | halted (stopped : s.stream.pump = .stopped) (bounded : taken ≤ s.received.length + capacity + 1)

section Step

variable {source : Source} {s : Session} {capacity taken : Nat}

theorem paced_start (capacity : Nat) : Paced capacity 0 (start capacity) :=
  .going rfl (Nat.zero_le capacity) rfl

theorem Paced.le (h : Paced capacity taken s) : taken ≤ s.received.length + capacity + 1 := by
  cases h with
  | going room fits accounts =>
    have hheld := fits.held_le
    rw [room] at hheld
    omega
  | halted stopped bounded => exact bounded

theorem Paced.poll (h : Paced capacity taken s) : Paced capacity taken (s.step source .poll) := by
  unfold Session.step
  dsimp only
  split_ifs
  · cases h with
    | going room fits accounts =>
      obtain ⟨hfits, hheld, hroom⟩ := fits.next
      refine .going (hroom.trans room) hfits ?_
      rw [List.length_append, Nat.add_assoc, hheld, accounts]
    | halted stopped bounded =>
      refine .halted ((LiveStream.pump_next s.stream).trans stopped) ?_
      rw [List.length_append]
      omega
  · exact h

/-- **Every event keeps the invariant.** -/
theorem Paced.step (h : Paced capacity taken s) (event : Event) :
    Paced capacity (taken + (s.yield? source event).toList.countP (·.carries))
      (s.step source event) := by
  have hpoll : Paced capacity taken (s.step source .poll) := h.poll
  have move := move_step source s event
  generalize hafter : s.step source event = after, s.yield? source event = yielded at move ⊢
  cases move with
  | polled reading arrival position =>
    cases h with
    | going room fits accounts =>
      refine .going ((LiveStream.frame_take arrival).2.trans room) (fits.take arrival) ?_
      show s.received.length + (s.stream.take arrival).held = _
      rw [LiveStream.held_take reading, ← Nat.add_assoc, accounts]
      cases harrival : arrival.carries <;> simp [harrival]
    | halted stopped bounded =>
      rw [reading] at stopped
      cases stopped
  | pumped busy =>
    cases h with
    | going room fits accounts =>
      obtain ⟨hfits, hheld, hroom⟩ := fits.pumpStep_of_ne busy .waiting
      exact .going (hroom.trans room) hfits (hheld ▸ accounts)
    | halted stopped bounded =>
      rw [LiveStream.pumpStep_of_stopped stopped]
      exact .halted stopped bounded
  | halted =>
    unfold LiveStream.halt
    split_ifs
    · exact .halted rfl h.le
    · exact h
  | attached opening =>
    obtain ⟨aborted, hattach⟩ := s.stream.attach_eq
    rw [hattach]
    cases h with
    | going room fits accounts => exact .going room fits accounts
    | halted stopped bounded => exact .halted stopped bounded
  | asked received =>
    rw [← hafter]
    exact hpoll
  | closed => exact .halted rfl h.le
  | dropped => exact .halted rfl h.le
  | again opened => exact h
  | gone detached => exact h

theorem Paced.after (h : Paced capacity taken s) (events : List Event) :
    Paced capacity (taken + (s.yielded source events).countP (·.carries))
      (s.after source events) := by
  induction events generalizing s taken with
  | nil => exact h
  | cons event rest ih =>
    rw [yielded, List.countP_append, ← Nat.add_assoc]
    exact ih (h.step event)

end Step

/-- **Backpressure.**  For every source, every capacity and every schedule, the number of failures
and of frames with some text that were taken from the feed exceeds the number of items that the
consumer got by at most one more than the capacity. -/
theorem ahead_le (source : Source) (capacity : Nat) (events : List Event) :
    ((start capacity).yielded source events).countP (·.carries) ≤
      ((start capacity).after source events).received.length + capacity + 1 := by
  have hpaced : Paced capacity (0 + ((start capacity).yielded source events).countP (·.carries))
      ((start capacity).after source events) := (paced_start capacity).after events
  rw [Nat.zero_add] at hpaced
  exact hpaced.le

/-! ### The bound is sharp -/

/-- A frame with some text. -/
def chatterFrame : Frame := ⟨.stdout, [0x61]⟩

/-- A source that goes on with the same frame for ever. -/
def chatter : Source := fun _ => some (.frame chatterFrame)

section Chatter

variable {s : Session}

/-- A pump that reads takes the next line in hand. -/
theorem step_chatter_reading (reading : s.stream.pump = .reading) :
    s.yield? chatter .pump = some (.item (.ok chatterFrame)) ∧
      (s.step chatter .pump).stream =
        { s.stream with pump := .sending (.ofFrame chatterFrame) } := by
  have htake : s.stream.pumpStep (.item (.ok chatterFrame)) =
      { s.stream with pump := .sending (.ofFrame chatterFrame) } :=
    LiveStream.pumpStep_of_reading reading _
  refine ⟨if_pos reading, ?_⟩
  unfold step
  dsimp only
  rw [if_pos reading, ← htake]
  rfl

/-- A pump that has a line in hand puts it into the queue, where there is room. -/
theorem step_chatter_sending {line : LogLine} (sending : s.stream.pump = .sending line)
    (room : s.stream.queue.length < s.stream.capacity) :
    s.yield? chatter .pump = none ∧
      (s.step chatter .pump).stream =
        { s.stream with queue := s.stream.queue ++ [.ok line], pump := .reading } := by
  have hbusy : s.stream.pump ≠ .reading := by rw [sending]; exact nofun
  have hroom : s.stream.hasRoom = true := decide_eq_true room
  refine ⟨if_neg hbusy, ?_⟩
  unfold step LiveStream.pumpStep LiveStream.send
  dsimp only
  rw [if_neg hbusy, sending]
  exact if_pos hroom

/-- While the consumer does nothing, the pump fills the queue and takes one more line in hand. -/
theorem countP_yielded_chatter {n : Nat} (reading : s.stream.pump = .reading)
    (room : s.stream.queue.length + n = s.stream.capacity) :
    (s.yielded chatter (List.replicate (2 * n + 1) .pump)).countP (·.carries) = n + 1 := by
  have hcarries : (Arrival.item (.ok chatterFrame)).carries = true := by decide +kernel
  induction n generalizing s with
  | zero =>
    obtain ⟨hfirst, -⟩ := step_chatter_reading reading
    rw [Nat.mul_zero, Nat.zero_add, List.replicate_one, yielded, hfirst]
    exact List.countP_singleton .. |>.trans (if_pos hcarries)
  | succ n ih =>
    -- one line goes through the hand of the pump into the queue
    obtain ⟨hfirst, htaken⟩ := step_chatter_reading reading
    obtain ⟨hsecond, hsent⟩ := step_chatter_sending (s := s.step chatter .pump) (by rw [htaken])
      (by rw [htaken]; show s.stream.queue.length < s.stream.capacity; omega)
    have hreading : ((s.step chatter .pump).step chatter .pump).stream.pump = .reading := by
      rw [hsent]
    have hrest := ih hreading (by
      rw [hsent, htaken, List.length_append, List.length_singleton]
      show s.stream.queue.length + 1 + n = s.stream.capacity
      omega)
    rw [show 2 * (n + 1) + 1 = 2 * n + 1 + 1 + 1 from rfl, List.replicate_succ,
      List.replicate_succ, yielded, yielded, hfirst, hsecond, Option.toList_some,
      Option.toList_none, List.nil_append, List.singleton_append, List.countP_cons, hrest,
      if_pos hcarries]

theorem received_pumps (source : Source) (n : Nat) :
    (s.after source (List.replicate n .pump)).received = s.received := by
  induction n generalizing s with
  | zero => rfl
  | succ n ih => exact ih.trans (pump_frame source s).1

end Chatter

/-- **The bound of `ahead_le` is attained** for every capacity. -/
theorem ahead_attained (capacity : Nat) : ∃ source events,
    ((start capacity).yielded source events).countP (·.carries) =
      ((start capacity).after source events).received.length + capacity + 1 := by
  refine ⟨chatter, List.replicate (2 * capacity + 1) .pump, ?_⟩
  have hempty : (start capacity).stream.queue.length + capacity = capacity := Nat.zero_add capacity
  rw [received_pumps, countP_yielded_chatter rfl hempty]
  exact congrArg (· + 1) (Nat.zero_add capacity).symm

end Session

end Dockmaster
