import Dockmaster.Proofs.Log.Release
import Mathlib.Algebra.GroupWithZero.Nat

/-!
# What is delivered of a live log

Whatever the schedule, the consumer of a live stream gets the lines of the feed in their order,
without a gap and without a repetition.  What it may miss is the failure that the feed ends with: a
pump that meets with the failure before its handle arrives is aborted, and while it waits for room in
the queue it may be taken down with the failure in hand (`failure_overtaken`).  Nothing else is ever
lost, and if the feed is there when the handle arrives, nothing is lost at all (`delivery_exact`).

`Session.lost` is the account of what is lost, and the invariant is `Exact`.  As long as the consumer
has not given the stream up, what it got, what the queue holds, what the pump has in hand and what
was lost make up what is to be delivered of the events that the pump is past; the pump still reads
only where the source goes on, and stops only where nothing is left (`Exact.read`, `Exact.pump`).
Once the stream is closed or dropped, nothing moves any more.
-/

namespace Dockmaster

/-- What the pump has in hand. -/
def Pump.inHand : Pump → List Delivery
  | .reading | .stopped => []
  | .sending line => [.ok line]
  | .failing e => [.error e]

namespace LiveStream

theorem cancelled_release (s : LiveStream) : s.release.cancelled = s.cancelled := by
  obtain ⟨drops, isClosed, hrelease⟩ := s.release_eq
  rw [hrelease]

theorem queue_release (s : LiveStream) : s.release.queue = s.queue := by
  obtain ⟨drops, isClosed, hrelease⟩ := s.release_eq
  rw [hrelease]

theorem cancelled_next (s : LiveStream) : s.next.1.cancelled = s.cancelled := by
  obtain ⟨queue, hnext⟩ := s.next_eq
  rw [hnext]

theorem pump_next (s : LiveStream) : s.next.1.pump = s.pump := by
  obtain ⟨queue, hnext⟩ := s.next_eq
  rw [hnext]

/-- What the consumer gets comes from the head of the queue. -/
theorem append_queue_next (s : LiveStream) :
    s.next.2.delivery?.toList ++ s.next.1.queue = s.queue := by
  obtain ⟨-, hnext⟩ | ⟨delivery, rest, hqueue, hnext⟩ | ⟨-, hnext⟩ | hnext := s.next_cases
  · rw [hnext]
    rfl
  · rw [hnext, hqueue]
    rfl
  · rw [hnext]
    rfl
  · rw [hnext]
    rfl

end LiveStream

namespace Session

/-- Whether nothing is left to be delivered of a source from some place on. -/
def Exhausted (source : Source) (k : Nat) : Prop :=
  ∀ j, k ≤ j → source.deliveries j = source.deliveries k

/-- Whether what the pump is at fits the place where it is. -/
def Placed (source : Source) (position : Nat) : Pump → Prop
  | .reading | .sending _ => source.reaches position = true
  | .failing _ | .stopped => Exhausted source position

/-- What an event costs: what an aborted pump has in hand when it is taken down. -/
def loss (s : Session) : Event → List Delivery
  | .halt => if s.stream.aborted then s.stream.pump.inHand else []
  | _ => []

/-- What is lost in the course of some events. -/
def lost (source : Source) (s : Session) : List Event → List Delivery
  | [] => []
  | event :: rest => s.loss event ++ lost source (s.step source event) rest

/-- **The invariant of a session**, in which so much was lost so far. -/
inductive Exact (source : Source) (s : Session) : List Delivery → Prop
  /-- The consumer has not given the stream up: nothing is lost and nothing is out of order. -/
  | opened (held : s.holder ≠ .nobody) (uncancelled : s.stream.cancelled = false)
      (accounts : s.received ++ s.stream.queue ++ s.stream.pump.inHand =
        source.deliveries s.position)
      (placed : Placed source s.position s.stream.pump) : Exact source s []
  /-- The same, after an aborted pump was taken down: what it had in hand was the last thing. -/
  | overtaken {lost : List Delivery} (held : s.holder ≠ .nobody)
      (uncancelled : s.stream.cancelled = false) (stopped : s.stream.pump = .stopped)
      (accounts : s.received ++ s.stream.queue ++ lost = source.deliveries s.position)
      (exhausted : Exhausted source s.position) : Exact source s lost
  /-- The consumer has closed or dropped the stream: nothing more comes. -/
  | closed {lost : List Delivery} (stopped : s.stream.pump = .stopped)
      (ended : s.holder ≠ .nobody → s.stream.cancelled = true)
      (received : s.received <+: source.deliveries s.position) : Exact source s lost

theorem exact_start (source : Source) (capacity : Nat) : Exact source (start capacity) [] :=
  .opened nofun rfl rfl rfl

section Step

variable {source : Source} {s : Session} {lost : List Delivery}

theorem Exact.received_prefix (h : Exact source s lost) :
    s.received <+: source.deliveries s.position := by
  cases h with
  | opened held uncancelled accounts placed =>
    rw [← accounts, List.append_assoc]
    exact List.prefix_append _ _
  | overtaken held uncancelled stopped accounts exhausted =>
    rw [← accounts, List.append_assoc]
    exact List.prefix_append _ _
  | closed stopped ended received => exact received

/-! ### The pump -/

/-- A pump that reads takes what the feed has for it in hand, or passes it over, or stops. -/
theorem Exact.read (held : s.holder ≠ .nobody) (uncancelled : s.stream.cancelled = false)
    (reading : s.stream.pump = .reading)
    (accounts : s.received ++ s.stream.queue = source.deliveries s.position)
    (reaches : source.reaches s.position = true) : Exact source (s.read source) [] := by
  have hstep := LiveStream.pumpStep_of_reading reading
  unfold Session.read
  split
  · rename_i hend
    rw [hstep]
    refine .opened held ?_ ?_ ?_
    · exact (LiveStream.cancelled_release _).trans uncancelled
    · show s.received ++ s.stream.release.queue ++ [] = _
      rw [LiveStream.queue_release, List.append_nil, accounts]
    · intro j hj
      exact Source.deliveries_eq_of_ended hend hj
  · rw [hstep]
    refine .opened held uncancelled ?_ ?_
    · show s.received ++ s.stream.queue ++ s.stream.pump.inHand = _
      rw [reading]
      exact (List.append_nil _).trans accounts
    · show Placed source s.position s.stream.pump
      rw [reading]
      exact reaches
  · rename_i event hsilence hevent
    have hnext := Source.deliveries_succ reaches hevent
    have hreaches := Source.reaches_succ reaches hevent
    rw [← accounts] at hnext
    rw [hstep]
    cases event with
    | silence => exact absurd rfl hsilence
    | nothing =>
      refine .opened held uncancelled ?_ ?_
      · show s.received ++ s.stream.queue ++ s.stream.pump.inHand = source.deliveries _
        rw [reading, hnext]
        rfl
      · show Placed source (s.position + 1) s.stream.pump
        rw [reading]
        exact hreaches
    | frame output =>
      have htake : s.stream.take (FeedEvent.frame output).arrival =
          if (LogLine.ofFrame output).text = "" then s.stream
          else { s.stream with pump := .sending (LogLine.ofFrame output) } := rfl
      rw [FeedEvent.delivery?_frame] at hnext
      rw [htake]
      split_ifs at hnext ⊢ with hempty
      · refine .opened held uncancelled ?_ ?_
        · show s.received ++ s.stream.queue ++ s.stream.pump.inHand = source.deliveries _
          rw [reading, hnext]
          rfl
        · show Placed source (s.position + 1) s.stream.pump
          rw [reading]
          exact hreaches
      · exact .opened held uncancelled hnext.symm hreaches
    | fault failure =>
      refine .opened held ?_ ?_ ?_
      · exact (LiveStream.cancelled_release _).trans uncancelled
      · show s.received ++ s.stream.release.queue ++ _ = source.deliveries _
        rw [LiveStream.queue_release, hnext]
        rfl
      · -- nothing follows a failure
        intro j hj
        exact Source.deliveries_eq_of_not_reaches hreaches hj

/-- What the pump has in hand goes to the end of the queue, if there is room. -/
theorem Exact.send {delivery : Delivery} {next : Pump} (held : s.holder ≠ .nobody)
    (uncancelled : s.stream.cancelled = false)
    (accounts : s.received ++ s.stream.queue ++ [delivery] = source.deliveries s.position)
    (empty : next.inHand = []) (placed : Placed source s.position next)
    (kept : s.stream.hasRoom = false → Exact source s []) :
    Exact source { s with stream := s.stream.send delivery next } [] := by
  unfold LiveStream.send
  split_ifs with hroom
  · refine .opened held uncancelled ?_ placed
    show s.received ++ (s.stream.queue ++ [delivery]) ++ next.inHand = _
    rw [empty, List.append_nil, ← List.append_assoc, accounts]
  · exact kept (Bool.eq_false_iff.mpr hroom)

/-- A pump that has stopped does nothing. -/
theorem step_pump_of_stopped (stopped : s.stream.pump = .stopped) :
    s.step source .pump = s := by
  unfold Session.step
  dsimp only
  rw [if_neg (by rw [stopped]; exact nofun), LiveStream.pumpStep_of_stopped stopped]

/-- **A step of the pump** loses nothing. -/
theorem Exact.pump (h : Exact source s lost) : Exact source (s.step source .pump) lost := by
  cases h with
  | closed stopped ended received =>
    rw [step_pump_of_stopped stopped]
    exact .closed stopped ended received
  | overtaken held uncancelled stopped accounts exhausted =>
    rw [step_pump_of_stopped stopped]
    exact .overtaken held uncancelled stopped accounts exhausted
  | opened held uncancelled accounts placed =>
    have hsame := Exact.opened (s := s) held uncancelled accounts placed
    unfold Session.step LiveStream.pumpStep
    dsimp only
    cases hpump : s.stream.pump with
    | reading =>
      rw [hpump] at accounts placed
      rw [if_pos rfl]
      exact Exact.read held uncancelled hpump ((List.append_nil _).symm.trans accounts) placed
    | sending line =>
      rw [hpump] at accounts placed
      rw [if_neg nofun]
      exact Exact.send held uncancelled accounts rfl placed fun _ => hsame
    | failing e =>
      rw [hpump] at accounts placed
      rw [if_neg nofun]
      exact Exact.send held uncancelled accounts rfl placed fun _ => hsame
    | stopped =>
      rw [if_neg nofun]
      exact hsame

/-- **A pump that is taken down** loses what it has in hand, and that is the last thing. -/
theorem Exact.halt (h : Exact source s lost) (sound : s.stream.Sound) :
    Exact source (s.step source .halt) (lost ++ s.loss .halt) := by
  unfold Session.step loss LiveStream.halt
  dsimp only
  split_ifs with haborted
  · cases h with
    | opened held uncancelled accounts placed =>
      refine .overtaken held uncancelled rfl accounts ?_
      -- it was aborted because the feed was dropped, and so it was past reading
      have hpast := sound.usesFeed_of_aborted haborted
      cases hpump : s.stream.pump with
      | reading | sending line =>
        rw [hpump] at hpast
        cases hpast
      | failing | stopped =>
        rw [hpump] at placed
        exact placed
    | overtaken held uncancelled stopped accounts exhausted =>
      rw [stopped, Pump.inHand, List.append_nil]
      exact .overtaken held uncancelled rfl accounts exhausted
    | closed stopped ended received => exact .closed rfl ended received
  · rw [List.append_nil]
    exact h

/-! ### The consumer -/

theorem Exact.attach (h : Exact source s lost) : Exact source (s.step source .attach) lost := by
  unfold Session.step
  dsimp only
  split_ifs with hopening
  · obtain ⟨aborted, hattach⟩ := s.stream.attach_eq
    rw [hattach]
    cases h with
    | opened held uncancelled accounts placed => exact .opened nofun uncancelled accounts placed
    | overtaken held uncancelled stopped accounts exhausted =>
      exact .overtaken nofun uncancelled stopped accounts exhausted
    | closed stopped ended received =>
      exact .closed stopped (fun _ => ended (by rw [hopening]; exact nofun)) received
  · exact h

theorem Exact.poll (h : Exact source s lost) : Exact source (s.step source .poll) lost := by
  unfold Session.step
  dsimp only
  split_ifs with hattached
  · have hqueue (tail : List Delivery) :
        s.received ++ s.stream.next.2.delivery?.toList ++ s.stream.next.1.queue ++ tail =
          s.received ++ s.stream.queue ++ tail := by
      rw [List.append_assoc s.received, s.stream.append_queue_next]
    have hpump := s.stream.pump_next
    have hcancelled := s.stream.cancelled_next
    cases h with
    | opened held uncancelled accounts placed =>
      rw [← hpump] at accounts placed
      exact .opened held (hcancelled.trans uncancelled) ((hqueue _).trans accounts) placed
    | overtaken held uncancelled stopped accounts exhausted =>
      exact .overtaken held (hcancelled.trans uncancelled) (hpump.trans stopped)
        ((hqueue _).trans accounts) exhausted
    | closed stopped ended received =>
      unfold LiveStream.next
      rw [if_pos (ended (holder_ne_of_attached hattached))]
      exact .closed stopped ended ((List.append_nil _).symm ▸ received)
  · exact h

/-- **Every event keeps the invariant**, and the account of what is lost. -/
theorem Exact.step (h : Exact source s lost) (sound : s.stream.Sound) (event : Event) :
    Exact source (s.step source event) (lost ++ s.loss event) := by
  cases event with
  | pump => exact (List.append_nil lost).symm ▸ h.pump
  | halt => exact h.halt sound
  | attach => exact (List.append_nil lost).symm ▸ h.attach
  | poll => exact (List.append_nil lost).symm ▸ h.poll
  | close =>
    unfold Session.step
    dsimp only
    split_ifs
    · exact .closed rfl (fun _ => rfl) h.received_prefix
    · exact (List.append_nil lost).symm ▸ h
  | drop =>
    unfold Session.step
    dsimp only
    split_ifs
    · exact .closed rfl (absurd rfl) h.received_prefix
    · exact (List.append_nil lost).symm ▸ h

theorem Exact.after (h : Exact source s lost) (sound : s.Sound) (events : List Event) :
    Exact source (s.after source events) (lost ++ s.lost source events) := by
  induction events generalizing s lost with
  | nil => exact (List.append_nil lost).symm ▸ h
  | cons event rest ih =>
    rw [Session.lost, ← List.append_assoc]
    exact ih (h.step sound.stream event) (sound.step event)

end Step

theorem exact_after (source : Source) (capacity : Nat) (events : List Event) :
    Exact source ((start capacity).after source events) ((start capacity).lost source events) :=
  (exact_start source capacity).after (sound_start capacity) events

/-! ### Closing -/

theorem pump_frame (source : Source) (s : Session) :
    (s.step source .pump).received = s.received ∧
      (s.step source .pump).holder = s.holder := by
  unfold step
  dsimp only
  split_ifs
  · unfold read
    split <;> exact ⟨rfl, rfl⟩
  · exact ⟨rfl, rfl⟩

/-- **The marks of a stream.**  Only the consumer cancels it, and only the arrival of the handle
aborts its pump. -/
theorem marks_step (source : Source) (s : Session) (event : Event) :
    (event ≠ .close → (s.step source event).stream.cancelled = s.stream.cancelled) ∧
    ((event = .attach → s.holder ≠ .opening) →
      (s.step source event).stream.aborted = s.stream.aborted) := by
  have move := move_step source s event
  generalize s.step source event = after, s.yield? source event = yielded at move ⊢
  cases move with
  | polled reading arrival position =>
    obtain ⟨pump, drops, isClosed, htake⟩ := s.stream.take_eq arrival
    rw [htake]
    exact ⟨fun _ => rfl, fun _ => rfl⟩
  | pumped busy =>
    obtain ⟨queue, pump, drops, isClosed, hstep⟩ := s.stream.pumpStep_eq .waiting
    rw [hstep]
    exact ⟨fun _ => rfl, fun _ => rfl⟩
  | halted =>
    obtain ⟨pump, hhalt⟩ := s.stream.halt_eq
    rw [hhalt]
    exact ⟨fun _ => rfl, fun _ => rfl⟩
  | attached opening =>
    obtain ⟨aborted, hattach⟩ := s.stream.attach_eq
    rw [hattach]
    exact ⟨fun _ => rfl, fun h => absurd opening (h rfl)⟩
  | asked received =>
    obtain ⟨queue, hnext⟩ := s.stream.next_eq
    rw [hnext]
    exact ⟨fun _ => rfl, fun _ => rfl⟩
  | closed =>
    obtain ⟨drops, isClosed, hrelease⟩ := s.stream.release_eq
    rw [LiveStream.close, LiveStream.drop, hrelease]
    exact ⟨absurd rfl, fun _ => rfl⟩
  | dropped =>
    obtain ⟨drops, isClosed, hrelease⟩ := s.stream.release_eq
    rw [LiveStream.drop, hrelease]
    exact ⟨fun _ => rfl, fun _ => rfl⟩
  | again opened => exact ⟨fun _ => rfl, fun _ => rfl⟩
  | gone detached => exact ⟨fun _ => rfl, fun _ => rfl⟩

/-- Whether the consumer has given the stream up: it closed or dropped it. -/
def GivenUp (s : Session) : Prop := s.holder ≠ .nobody → s.stream.cancelled = true

/-- **Whoever gave the stream up gets nothing more**, whatever the queue holds. -/
theorem GivenUp.step {source : Source} {s : Session} (h : s.GivenUp) (event : Event) :
    (s.step source event).GivenUp ∧ (s.step source event).received = s.received := by
  cases event with
  | pump =>
    obtain ⟨hreceived, hholder⟩ := pump_frame source s
    refine ⟨?_, hreceived⟩
    unfold GivenUp
    rw [hholder, (marks_step source s .pump).1 nofun]
    exact h
  | halt =>
    unfold Session.step
    obtain ⟨pump, hhalt⟩ := s.stream.halt_eq
    rw [hhalt]
    exact ⟨h, rfl⟩
  | attach =>
    unfold Session.step
    dsimp only
    split_ifs with hopening
    · obtain ⟨aborted, hattach⟩ := s.stream.attach_eq
      rw [hattach]
      exact ⟨fun _ => h (by rw [hopening]; exact nofun), rfl⟩
    · exact ⟨h, rfl⟩
  | poll =>
    unfold Session.step
    dsimp only
    split_ifs with hattached
    · unfold LiveStream.next
      rw [if_pos (h (holder_ne_of_attached hattached))]
      exact ⟨h, List.append_nil _⟩
    · exact ⟨h, rfl⟩
  | close =>
    unfold Session.step
    dsimp only
    split_ifs with hattached
    · exact ⟨fun _ => rfl, rfl⟩
    · exact ⟨h, rfl⟩
  | drop =>
    unfold Session.step
    dsimp only
    split_ifs with hattached
    · exact ⟨absurd rfl, rfl⟩
    · exact ⟨h, rfl⟩

theorem GivenUp.after {source : Source} {s : Session} (h : s.GivenUp) (events : List Event) :
    (s.after source events).received = s.received := by
  induction events generalizing s with
  | nil => rfl
  | cons event rest ih =>
    have hstep : (s.step source event).GivenUp ∧ (s.step source event).received = s.received :=
      h.step event
    exact (ih hstep.1).trans hstep.2

theorem givenUp_close (source : Source) {s : Session} (opened : s.holder ≠ .opening) :
    (s.step source .close).GivenUp := by
  unfold step
  dsimp only
  split_ifs with hattached
  · exact fun _ => rfl
  · intro hheld
    have hconsumer : s.holder ≠ .consumer := fun h => hattached (decide_eq_true h)
    cases hholder : s.holder with
    | opening => exact absurd hholder opened
    | consumer => exact absurd hholder hconsumer
    | nobody => exact absurd hholder hheld

/-- A stream that nobody closed is not cancelled. -/
theorem cancelled_after (source : Source) (capacity : Nat) {events : List Event}
    (h : .close ∉ events) :
    ((start capacity).after source events).stream.cancelled = false := by
  induction events using List.reverseRecOn with
  | nil => rfl
  | append_singleton past event ih =>
    have hpast := ih fun hmem => h (List.mem_append_left _ hmem)
    have hevent : event ≠ .close := by
      rintro rfl
      exact h (List.mem_append_right _ (List.mem_singleton_self _))
    rw [after_snoc, (marks_step source _ event).1 hevent, hpast]

/-! ### What is lost -/

section Lost

variable {source : Source} {s : Session}

theorem lost_append (source : Source) (s : Session) (first second : List Event) :
    s.lost source (first ++ second) =
      s.lost source first ++ (s.after source first).lost source second := by
  induction first generalizing s with
  | nil => rfl
  | cons event rest ih =>
    rw [List.cons_append, lost, lost, ih, List.append_assoc]
    rfl

/-- Nothing but the end of an aborted pump with something in hand costs anything. -/
theorem loss_eq_nil {event : Event}
    (h : event = .halt → s.stream.aborted = true → s.stream.pump.inHand = []) :
    s.loss event = [] := by
  unfold loss
  split
  · split_ifs with haborted
    · exact h rfl haborted
    · rfl
  · rfl

/-- A pump that has stopped does not start again. -/
theorem stopped_step (stopped : s.stream.pump = .stopped) (event : Event) :
    (s.step source event).stream.pump = .stopped := by
  have move := move_step source s event
  generalize s.step source event = after, s.yield? source event = yielded at move ⊢
  cases move with
  | polled reading arrival position =>
    rw [stopped] at reading
    cases reading
  | pumped busy =>
    rw [LiveStream.pumpStep_of_stopped stopped]
    exact stopped
  | halted =>
    unfold LiveStream.halt
    split_ifs
    · rfl
    · exact stopped
  | attached opening =>
    obtain ⟨aborted, hattach⟩ := s.stream.attach_eq
    rw [hattach]
    exact stopped
  | asked received => exact s.stream.pump_next.trans stopped
  | closed => rfl
  | dropped => rfl
  | again opened => exact stopped
  | gone detached => exact stopped

/-- A pump that has stopped has nothing to lose. -/
theorem lost_of_stopped (stopped : s.stream.pump = .stopped) (events : List Event) :
    s.lost source events = [] := by
  induction events generalizing s with
  | nil => rfl
  | cons event rest ih =>
    have hloss : s.loss event = [] := loss_eq_nil fun _ _ => by rw [stopped]; rfl
    rw [lost, hloss, ih (stopped_step stopped event), List.append_nil]

/-- **Only a failure is lost**, and nothing after it. -/
theorem Sound.lost_cases (h : s.Sound) (source : Source) (events : List Event) :
    s.lost source events = [] ∨ ∃ e, s.lost source events = [.error e] := by
  induction events generalizing s with
  | nil => exact .inl rfl
  | cons event rest ih =>
    rw [lost]
    by_cases hhalts : event = .halt ∧ s.stream.aborted = true
    · obtain ⟨rfl, haborted⟩ := hhalts
      have hstopped : (s.step source .halt).stream.pump = .stopped := by
        show s.stream.halt.pump = .stopped
        rw [LiveStream.halt, if_pos haborted]
      have hloss : s.loss .halt = s.stream.pump.inHand := if_pos haborted
      rw [lost_of_stopped hstopped, hloss, List.append_nil]
      have hpast := h.stream.usesFeed_of_aborted haborted
      cases hpump : s.stream.pump with
      | reading => exact .inl rfl
      | sending line =>
        rw [hpump] at hpast
        cases hpast
      | failing e => exact .inr ⟨e, rfl⟩
      | stopped => exact .inl rfl
    · have hloss : s.loss event = [] :=
        loss_eq_nil fun hhalt haborted => absurd ⟨hhalt, haborted⟩ hhalts
      rw [hloss, List.nil_append]
      exact ih (h.step event)

/-- A stream that was opened is not opened again. -/
theorem opened_step (opened : s.holder ≠ .opening) (event : Event) :
    (s.step source event).holder ≠ .opening := by
  have move := move_step source s event
  generalize s.step source event = after, s.yield? source event = yielded at move ⊢
  cases move with
  | attached opening => exact nofun
  | dropped => exact nofun
  | _ => exact opened

/-- **A pump that is not aborted loses nothing.** -/
theorem lost_of_unaborted {events : List Event} (unaborted : s.stream.aborted = false)
    (h : .attach ∈ events → s.holder ≠ .opening) :
    s.lost source events = [] ∧ (s.after source events).stream.aborted = false := by
  induction events generalizing s with
  | nil => exact ⟨rfl, unaborted⟩
  | cons event rest ih =>
    have hloss : s.loss event = [] :=
      loss_eq_nil fun _ haborted => absurd (unaborted.symm.trans haborted) nofun
    have hstep : (s.step source event).stream.aborted = false := by
      have hopened : event = .attach → s.holder ≠ .opening :=
        fun hattach => h (hattach ▸ List.mem_cons_self)
      rw [(marks_step source s event).2 hopened, unaborted]
    rw [lost, hloss, List.nil_append]
    exact ih hstep fun hmem => opened_step (h (List.mem_cons_of_mem _ hmem)) event

/-- **Nothing is lost if the feed is there when the handle arrives.** -/
theorem lost_of_attach {capacity : Nat} {past future : List Event} (first : .attach ∉ past)
    (isOpen : ((start capacity).after source past).stream.isClosed = false) :
    (start capacity).lost source (past ++ .attach :: future) = [] := by
  obtain ⟨hpast, hunaborted⟩ : (start capacity).lost source past = [] ∧
      ((start capacity).after source past).stream.aborted = false :=
    lost_of_unaborted rfl fun hmem => absurd hmem first
  rw [lost_append, hpast, List.nil_append]
  generalize (start capacity).after source past = s at isOpen hunaborted
  have hstep : (s.step source .attach).stream.aborted = false ∧
      (s.step source .attach).holder ≠ .opening := by
    unfold step
    dsimp only
    split_ifs with hopening
    · rw [LiveStream.attach, if_neg (by rw [isOpen]; exact nofun)]
      exact ⟨hunaborted, nofun⟩
    · exact ⟨hunaborted, hopening⟩
  exact (lost_of_unaborted hstep.1 fun _ => hstep.2).1

end Lost

/-! ### Delivery -/

/-- **At the end of a stream that was not closed**, what was received and what was lost make up
everything. -/
theorem accounts_of_ended (source : Source) (capacity : Nat) {events : List Event}
    (attached : ((start capacity).after source events).attached = true)
    (unclosed : .close ∉ events)
    (ended : ((start capacity).after source events).stream.next.2 = .ended) :
    ((start capacity).after source events).received ++ (start capacity).lost source events =
        source.deliveries ((start capacity).after source events).position ∧
      Exhausted source ((start capacity).after source events).position := by
  have hexact := exact_after source capacity events
  have hopen := cancelled_after source capacity unclosed
  generalize (start capacity).after source events = s at *
  generalize (start capacity).lost source events = lost at *
  obtain ⟨hqueue, hpump⟩ := LiveStream.idle_of_ended hopen ended
  cases hexact with
  | opened held uncancelled accounts placed =>
    rw [hpump] at accounts placed
    rw [hqueue, List.append_nil] at accounts
    exact ⟨accounts, placed⟩
  | overtaken held uncancelled stopped accounts exhausted =>
    rw [hqueue, List.append_nil] at accounts
    exact ⟨accounts, exhausted⟩
  | closed stopped ended received =>
    rw [ended (holder_ne_of_attached attached)] at hopen
    cases hopen

/-- **What is delivered.**  A stream can be opened with a capacity of at least 1 and less than
`2 ^ 61`.  For every source, every capacity and every schedule, what the consumer got is the
beginning of what is to be delivered.  If it sees the end of a stream that it did not close, what it
got and what was lost make up everything that there is to be delivered at all.  Nothing is lost but
the failure at the end, and not even that if the feed is there when the handle of the pump arrives.
Once the consumer has closed the stream, it gets nothing more. -/
theorem delivery_exact (source : Source) (capacity : Nat) (events : List Event) :
    (LiveStream.canOpen capacity = true ↔ 1 ≤ capacity ∧ capacity < 2 ^ 61) ∧
    (∃ k, ((start capacity).after source events).received <+: source.deliveries k) ∧
    (((start capacity).after source events).attached = true → .close ∉ events →
      ((start capacity).after source events).stream.next.2 = .ended →
        ∃ k, ((start capacity).after source events).received ++
            (start capacity).lost source events = source.deliveries k ∧
          ∀ j, k ≤ j → source.deliveries j = source.deliveries k) ∧
    ((start capacity).lost source events = [] ∨
      ∃ e, (start capacity).lost source events = [.error e]) ∧
    (∀ past future, events = past ++ .attach :: future → .attach ∉ past →
      ((start capacity).after source past).stream.isClosed = false →
        (start capacity).lost source events = []) ∧
    (∀ past future, events = past ++ .close :: future →
      ((start capacity).after source past).holder ≠ .opening →
        ((start capacity).after source events).received =
          ((start capacity).after source past).received) := by
  have hexact := exact_after source capacity events
  refine ⟨?_, ⟨_, hexact.received_prefix⟩,
    fun attached unclosed ended => ⟨_, accounts_of_ended source capacity attached unclosed ended⟩,
    (sound_start capacity).lost_cases source events, ?_, ?_⟩
  · rw [LiveStream.canOpen, decide_eq_true_iff, LiveStream.maxCapacity]
    omega
  · rintro past future rfl first isOpen
    exact lost_of_attach first isOpen
  · rintro past future rfl opened
    rw [List.append_cons, after_append, after_snoc]
    rw [(givenUp_close source opened).after future]
    unfold step
    dsimp only
    split_ifs <;> rfl

/-- Delivery is not exact for every capacity and every schedule.  With room for one line, a pump that
runs before its handle arrives puts the line of `brokenOff` into the queue and meets with the failure;
it is aborted and taken down while it waits for room, and the consumer gets the line and then sees
the end.  And there are capacities of at least 1 with which no stream can be opened. -/
theorem failure_overtaken :
    (((start 1).after brokenOff [.pump, .pump, .pump, .attach, .halt, .poll]).attached = true ∧
      .close ∉ [Event.pump, .pump, .pump, .attach, .halt, .poll] ∧
      ((start 1).after brokenOff [.pump, .pump, .pump, .attach, .halt, .poll]).stream.next.2 =
        .ended ∧
      ¬ ∃ k, ((start 1).after brokenOff [.pump, .pump, .pump, .attach, .halt, .poll]).received =
          brokenOff.deliveries k ∧
        ∀ j, k ≤ j → brokenOff.deliveries j = brokenOff.deliveries k) ∧
    LiveStream.canOpen (2 ^ 61) = false := by
  refine ⟨⟨rfl, by decide, rfl, ?_⟩, by decide⟩
  rintro ⟨k, hreceived, hall⟩
  -- all there is to be delivered are the line and the failure
  have hend : brokenOff.deliveries (k + 2) = brokenOff.deliveries 2 :=
    Source.deliveries_eq_of_ended rfl (Nat.le_add_left 2 k)
  rw [hall (k + 2) (Nat.le_add_right k 2), ← hreceived] at hend
  exact absurd (congrArg List.length hend) (by decide +kernel)

end Session

end Dockmaster
