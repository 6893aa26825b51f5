import Dockmaster.Proofs.Log.Session

/-!
# The feed is dropped once, and before the end is seen

A live stream may come to its end in four ways: the feed fails, the feed ends, the consumer closes
the stream, or the consumer drops it. Whichever comes first drops the feed, the others find it
dropped, and nobody sees the end before (`released_once`). One poll of the pump makes as many of
the steps of a session as it can before it has to wait, so every schedule of polls and calls is one
of the runs that are spoken of here. A pump is aborted only where the feed is dropped already, so
that it is taken down makes no difference to the feed.

* `Session.yield?` is what the feed has for the pump when an event makes the pump poll it; an event
  that does not poll the feed is the same over any other feed (`step_eq_of_yield?_eq_none`).
* `Session.Move` lists what an event can come to, and `Session.Sound` is the invariant: the feed is
  dropped iff the pump is past reading it, and an error in the queue or a consumer who has left
  comes with a dropped feed.
-/

namespace Dockmaster

/-- Whether a feed has nothing more after something: it failed or it ended. -/
def Arrival.isLast : Arrival → Bool
  | .waiting | .item (.ok _) => false
  | .item (.error _) | .ended => true

/-- Whether the pump still needs the feed. -/
def Pump.usesFeed : Pump → Bool
  | .reading | .sending _ => true
  | .failing _ | .stopped => false

/-! ### Streams -/

namespace LiveStream

/-- **The invariant of a stream**: what it knows of its feed is true. -/
structure Sound (s : LiveStream) : Prop where
  /-- The feed was dropped once if it is dropped, and never if it is not. -/
  once : s.drops = if s.isClosed then 1 else 0
  /-- The feed is dropped iff the pump does not need it. -/
  needed : s.isClosed = !s.pump.usesFeed
  /-- An error comes into the queue after the feed is dropped. -/
  failed : ∀ e, .error e ∈ s.queue → s.isClosed = true
  /-- A stream that the consumer closed has its feed dropped. -/
  cancelled : s.cancelled = true → s.isClosed = true
  /-- So has a stream whose pump was aborted. -/
  aborted : s.aborted = true → s.isClosed = true

theorem sound_start (capacity : Nat) : (start capacity).Sound where
  once := rfl
  needed := rfl
  failed _ h := absurd h List.not_mem_nil
  cancelled h := nomatch h
  aborted h := nomatch h

@[simp] theorem isClosed_release (s : LiveStream) : s.release.isClosed = true := by
  unfold release
  split_ifs with h
  · exact h
  · rfl

section Sound

variable {s : LiveStream}

/-- However often a feed is dropped, it is dropped once. -/
theorem Sound.drops_release (h : s.Sound) : s.release.drops = 1 := by
  have honce := h.once
  unfold release
  split_ifs at honce ⊢
  · exact honce
  · exact congrArg (· + 1) honce

/-- Whoever drops the feed takes the pump away from it. -/
theorem Sound.release (h : s.Sound) {pump : Pump} (hpump : pump.usesFeed = false) :
    Sound { s.release with pump } where
  once := by
    show s.release.drops = if s.release.isClosed then 1 else 0
    rw [h.drops_release, isClosed_release, if_pos rfl]
  needed := by
    show s.release.isClosed = !pump.usesFeed
    rw [isClosed_release, hpump]
    rfl
  failed _ _ := isClosed_release s
  cancelled _ := isClosed_release s
  aborted _ := isClosed_release s

theorem Sound.drop (h : s.Sound) : s.drop.Sound := h.release rfl

theorem Sound.close (h : s.Sound) : s.close.Sound where
  once := h.drop.once
  needed := h.drop.needed
  failed := h.drop.failed
  cancelled _ := isClosed_release s
  aborted := h.drop.aborted

/-- An aborted pump does not need the feed. -/
theorem Sound.usesFeed_of_aborted (h : s.Sound) (aborted : s.aborted = true) :
    s.pump.usesFeed = false := by
  have hneeded := h.needed
  rw [h.aborted aborted] at hneeded
  simpa using hneeded.symm

theorem Sound.attach (h : s.Sound) : s.attach.Sound := by
  unfold LiveStream.attach
  split_ifs with hclosed
  · exact ⟨h.once, h.needed, h.failed, h.cancelled, fun _ => hclosed⟩
  · exact h

/-- That a pump is taken down costs the feed nothing: the pump has no use for it. -/
theorem Sound.halt (h : s.Sound) : s.halt.Sound := by
  unfold LiveStream.halt
  split_ifs with haborted
  · exact ⟨h.once, h.aborted haborted, h.failed, h.cancelled, h.aborted⟩
  · exact h

/-- A pump that polls the feed goes on with it, or drops it. -/
theorem Sound.take (h : s.Sound) (reading : s.pump = .reading) (arrival : Arrival) :
    (s.take arrival).Sound := by
  have hopen : s.isClosed = false := by rw [h.needed, reading]; rfl
  unfold LiveStream.take
  cases arrival with
  | waiting => exact h
  | ended => exact h.release rfl
  | item item =>
    cases item with
    | error fault => exact h.release rfl
    | ok frame =>
      dsimp only
      split_ifs
      · exact h
      · exact ⟨h.once, hopen, h.failed, h.cancelled, h.aborted⟩

/-- A pump that puts something into the queue needs the feed afterwards if it did before, and only
one that does not need it puts an error there. -/
theorem Sound.send (h : s.Sound) {delivery : Delivery} {next : Pump}
    (hnext : next.usesFeed = s.pump.usesFeed)
    (herror : ∀ e, delivery = .error e → s.isClosed = true) : (s.send delivery next).Sound := by
  unfold LiveStream.send
  split_ifs
  · refine ⟨h.once, ?_, fun e hmem => ?_, h.cancelled, h.aborted⟩
    · show s.isClosed = !next.usesFeed
      rw [hnext, h.needed]
    · rcases List.mem_append.mp hmem with hmem | hmem
      · exact h.failed e hmem
      · exact herror e (List.mem_singleton.mp hmem).symm
  · exact h

theorem Sound.pumpStep (h : s.Sound) (arrival : Arrival) : (s.pumpStep arrival).Sound := by
  have hneeded := h.needed
  unfold LiveStream.pumpStep
  cases hpump : s.pump with
  | reading => exact h.take hpump arrival
  | sending line => exact h.send (by rw [hpump]; rfl) nofun
  | failing e =>
    rw [hpump] at hneeded
    exact h.send (by rw [hpump]; rfl) fun _ _ => hneeded
  | stopped => exact h

/-- **What the consumer finds**: the end if it closed the stream, else the oldest item, else the end
if the pump has stopped. -/
theorem next_cases (s : LiveStream) :
    (s.cancelled = true ∧ s.next = (s, .ended)) ∨
    (∃ delivery rest, s.queue = delivery :: rest ∧
      s.next = ({ s with queue := rest }, .item delivery)) ∨
    (s.pump = .stopped ∧ s.next = (s, .ended)) ∨
    s.next = (s, .pending) := by
  unfold LiveStream.next
  by_cases hcancelled : s.cancelled = true
  · exact .inl ⟨hcancelled, if_pos hcancelled⟩
  · rw [if_neg hcancelled]
    cases hqueue : s.queue with
    | cons delivery rest => exact .inr (.inl ⟨delivery, rest, rfl, rfl⟩)
    | nil =>
      by_cases hstopped : s.pump = .stopped
      · exact .inr (.inr (.inl ⟨hstopped, congrArg (Prod.mk s) (if_pos hstopped)⟩))
      · exact .inr (.inr (.inr (congrArg (Prod.mk s) (if_neg hstopped))))

theorem Sound.next (h : s.Sound) : s.next.1.Sound := by
  obtain ⟨-, hnext⟩ | ⟨delivery, rest, hqueue, hnext⟩ | ⟨-, hnext⟩ | hnext := s.next_cases
  · rwa [hnext]
  · rw [hnext]
    refine ⟨h.once, h.needed, fun e hmem => h.failed e ?_, h.cancelled, h.aborted⟩
    rw [hqueue]
    exact List.mem_cons_of_mem _ hmem
  · rwa [hnext]
  · rwa [hnext]

/-- **Whoever gets an error or sees the end finds the feed dropped.** -/
theorem Sound.isClosed_of_next (h : s.Sound)
    (hfound : s.next.2 = .ended ∨ ∃ e, s.next.2 = .item (.error e)) : s.isClosed = true := by
  obtain ⟨hcancelled, -⟩ | ⟨delivery, rest, hqueue, hnext⟩ | ⟨hstopped, -⟩ | hnext := s.next_cases
  · exact h.cancelled hcancelled
  · rw [hnext] at hfound
    obtain ⟨⟨⟩⟩ | ⟨e, he⟩ := hfound
    cases he
    exact h.failed e (hqueue ▸ List.mem_cons_self)
  · rw [h.needed, hstopped]
    rfl
  · rw [hnext] at hfound
    obtain ⟨⟨⟩⟩ | ⟨e, ⟨⟩⟩ := hfound

/-! ### A dropped feed stays dropped -/

theorem isClosed_attach (s : LiveStream) : s.attach.isClosed = s.isClosed := by
  obtain ⟨aborted, hattach⟩ := s.attach_eq
  rw [hattach]

theorem isClosed_halt (s : LiveStream) : s.halt.isClosed = s.isClosed := by
  obtain ⟨pump, hhalt⟩ := s.halt_eq
  rw [hhalt]

theorem isClosed_next (s : LiveStream) : s.next.1.isClosed = s.isClosed := by
  obtain ⟨queue, hnext⟩ := s.next_eq
  rw [hnext]

theorem isClosed_pumpStep_of_ne {arrival : Arrival} (h : s.pump ≠ .reading) :
    (s.pumpStep arrival).isClosed = s.isClosed := by
  have hsend (delivery : Delivery) (next : Pump) :
      (s.send delivery next).isClosed = s.isClosed := by
    obtain ⟨queue, pump, hsend⟩ := s.send_eq delivery next
    rw [hsend]
  unfold LiveStream.pumpStep
  split
  · rename_i hreading
    exact absurd hreading h
  · exact hsend _ _
  · exact hsend _ _
  · rfl

/-- A feed that failed or ended is dropped on the spot. -/
theorem isClosed_take_of_isLast {arrival : Arrival} (h : arrival.isLast = true) :
    (s.take arrival).isClosed = true := by
  cases arrival with
  | waiting => cases h
  | ended => exact isClosed_release s
  | item item =>
    cases item with
    | ok frame => cases h
    | error fault => exact isClosed_release s

end Sound

end LiveStream

/-! ### Sessions -/

/-- What a source has at a place for whoever polls it. -/
def Source.arrival (source : Source) (position : Nat) : Arrival :=
  match source position with
  | some event => event.arrival
  | none => .ended

namespace Session

/-- What the feed has for the pump in an event that makes the pump poll it. -/
def yield? (source : Source) (s : Session) : Event → Option Arrival
  | .pump => if s.stream.pump = .reading then some (source.arrival s.position) else none
  | _ => none

/-- What the feed yielded in the course of some events. -/
def yielded (source : Source) (s : Session) : List Event → List Arrival
  | [] => []
  | event :: rest => (s.yield? source event).toList ++ yielded source (s.step source event) rest

/-- **What an event can come to**: the session afterwards, and what the feed yields. -/
inductive Move (s : Session) : Event → Session → Option Arrival → Prop
  /-- The pump polls the feed. -/
  | polled (reading : s.stream.pump = .reading) (arrival : Arrival) (position : Nat) :
      Move s .pump { s with stream := s.stream.take arrival, position } (some arrival)
  /-- The pump is past the feed, or has something in hand. -/
  | pumped (busy : s.stream.pump ≠ .reading) :
      Move s .pump { s with stream := s.stream.pumpStep .waiting } none
  /-- A pump that was aborted is taken down. -/
  | halted : Move s .halt { s with stream := s.stream.halt } none
  /-- The consumer gets the stream. -/
  | attached (opening : s.holder = .opening) :
      Move s .attach { s with stream := s.stream.attach, holder := .consumer } none
  /-- The consumer asks for the next line. -/
  | asked (received : List Delivery) :
      Move s .poll { s with stream := s.stream.next.1, received } none
  /-- The consumer closes the stream. -/
  | closed : Move s .close { s with stream := s.stream.close } none
  /-- The consumer drops the stream. -/
  | dropped : Move s .drop { s with stream := s.stream.drop, holder := .nobody } none
  /-- The handle of the pump has arrived before. -/
  | again (opened : s.holder ≠ .opening) : Move s .attach s none
  /-- The consumer does not have the stream. -/
  | gone {event : Event} (detached : s.attached = false) : Move s event s none

section Step

variable {source : Source} {s : Session}

/-- A pump that reads takes what the source has for it. -/
theorem read_eq (source : Source) (reading : s.stream.pump = .reading) :
    ∃ position, s.read source =
      { s with stream := s.stream.take (source.arrival s.position), position } := by
  have hstep := LiveStream.pumpStep_of_reading reading
  unfold read Source.arrival
  split
  · rename_i hend
    exact ⟨s.position, by rw [hstep, hend]⟩
  · rename_i hsilence
    exact ⟨s.position, by rw [hstep, hsilence]; rfl⟩
  · rename_i event _ hevent
    exact ⟨s.position + 1, by rw [hstep, hevent]⟩

/-- **Nothing else happens.** -/
theorem move_step (source : Source) (s : Session) (event : Event) :
    Move s event (s.step source event) (s.yield? source event) := by
  cases event with
  | pump =>
    unfold step yield?
    dsimp only
    split_ifs with hreading
    · -- the pump polls the feed, whatever it finds; only how far it gets depends on that
      obtain ⟨position, hread⟩ := read_eq source hreading
      rw [hread]
      exact .polled hreading _ position
    · exact .pumped hreading
  | halt => exact .halted
  | attach =>
    unfold step yield?
    dsimp only
    split_ifs with hopening
    · exact .attached hopening
    · exact .again hopening
  | poll =>
    unfold step yield?
    dsimp only
    split_ifs with hattached
    · exact .asked _
    · exact .gone (by simpa using hattached)
  | close =>
    unfold step yield?
    dsimp only
    split_ifs with hattached
    · exact .closed
    · exact .gone (by simpa using hattached)
  | drop =>
    unfold step yield?
    dsimp only
    split_ifs with hattached
    · exact .dropped
    · exact .gone (by simpa using hattached)

/-- An event in which the pump does not poll the feed is the same over any feed. -/
theorem step_eq_of_yield?_eq_none {event : Event} (h : s.yield? source event = none)
    (other : Source) : s.step source event = s.step other event := by
  cases event with
  | pump =>
    unfold yield? at h
    dsimp only at h
    unfold step
    dsimp only
    split_ifs at h ⊢
    rfl
  | _ => rfl

/-- **The invariant of a session.** -/
structure Sound (s : Session) : Prop where
  /-- The stream is sound. -/
  stream : s.stream.Sound
  /-- A consumer who has dropped the stream has dropped the feed. -/
  detached : s.holder = .nobody → s.stream.isClosed = true

theorem sound_start (capacity : Nat) : (start capacity).Sound where
  stream := LiveStream.sound_start capacity
  detached h := nomatch h

/-- Nobody takes a feed back that is dropped. -/
theorem isClosed_step (h : s.Sound) (event : Event) (hclosed : s.stream.isClosed = true) :
    (s.step source event).stream.isClosed = true := by
  have move := move_step source s event
  generalize s.step source event = after, s.yield? source event = yielded at move ⊢
  cases move with
  | polled reading arrival position =>
    -- a pump that reads has the feed
    rw [h.stream.needed, reading] at hclosed
    cases hclosed
  | pumped busy => exact (LiveStream.isClosed_pumpStep_of_ne busy).trans hclosed
  | halted => exact (LiveStream.isClosed_halt _).trans hclosed
  | attached opening => exact (LiveStream.isClosed_attach _).trans hclosed
  | asked received => exact (LiveStream.isClosed_next _).trans hclosed
  | closed => exact LiveStream.isClosed_release _
  | dropped => exact LiveStream.isClosed_release _
  | again opened => exact hclosed
  | gone detached => exact hclosed

/-- **Every event keeps the invariant.** -/
theorem Sound.step (h : s.Sound) (event : Event) : (s.step source event).Sound := by
  have hclosed : s.stream.isClosed = true → (s.step source event).stream.isClosed = true :=
    isClosed_step h event
  have move := move_step source s event
  generalize s.step source event = after, s.yield? source event = yielded at move hclosed ⊢
  cases move with
  | polled reading arrival position =>
    exact ⟨h.stream.take reading arrival, fun hdetached => hclosed (h.detached hdetached)⟩
  | pumped busy => exact ⟨h.stream.pumpStep _, fun hdetached => hclosed (h.detached hdetached)⟩
  | halted => exact ⟨h.stream.halt, fun hdetached => hclosed (h.detached hdetached)⟩
  | attached opening => exact ⟨h.stream.attach, nofun⟩
  | asked received => exact ⟨h.stream.next, fun hdetached => hclosed (h.detached hdetached)⟩
  | closed => exact ⟨h.stream.close, fun _ => LiveStream.isClosed_release _⟩
  | dropped => exact ⟨h.stream.drop, fun _ => LiveStream.isClosed_release _⟩
  | again opened => exact h
  | gone detached => exact h

theorem Sound.after (h : s.Sound) (events : List Event) : (s.after source events).Sound := by
  induction events generalizing s with
  | nil => exact h
  | cons event rest ih => exact ih (h.step event)

theorem isClosed_after (h : s.Sound) (events : List Event) (hclosed : s.stream.isClosed = true) :
    (s.after source events).stream.isClosed = true := by
  induction events generalizing s with
  | nil => exact hclosed
  | cons event rest ih => exact ih (h.step event) (isClosed_step h event hclosed)

/-! ### Polls of the feed -/

/-- **A dropped feed is not polled.** -/
theorem Sound.yield?_eq_none (h : s.Sound) (hclosed : s.stream.isClosed = true) (event : Event) :
    s.yield? source event = none := by
  have move := move_step source s event
  generalize s.step source event = after, s.yield? source event = yielded at move
  cases move with
  | polled reading arrival position =>
    rw [h.stream.needed, reading] at hclosed
    cases hclosed
  | _ => rfl

theorem Sound.yielded_eq_nil (h : s.Sound) (hclosed : s.stream.isClosed = true)
    (events : List Event) : s.yielded source events = [] := by
  induction events generalizing s with
  | nil => rfl
  | cons event rest ih =>
    rw [yielded, h.yield?_eq_none hclosed, ih (h.step event) (isClosed_step h event hclosed)]
    rfl

theorem isClosed_of_yield? {event : Event} {arrival : Arrival}
    (h : s.yield? source event = some arrival) (hlast : arrival.isLast = true) :
    (s.step source event).stream.isClosed = true := by
  have move := move_step source s event
  rw [h] at move
  generalize s.step source event = after at move ⊢
  cases move with
  | polled reading arrival position => exact LiveStream.isClosed_take_of_isLast hlast

/-- **Nothing is asked of a feed that failed or ended.** -/
theorem Sound.yielded_last (h : s.Sound) {events : List Event} {before after : List Arrival}
    {arrival : Arrival} (hyielded : s.yielded source events = before ++ arrival :: after)
    (hlast : arrival.isLast = true) : after = [] := by
  induction events generalizing s before with
  | nil => cases before <;> cases hyielded
  | cons event rest ih =>
    rw [yielded] at hyielded
    cases hyield : s.yield? source event with
    | none =>
      rw [hyield] at hyielded
      exact ih (h.step event) hyielded
    | some first =>
      rw [hyield] at hyielded
      cases before with
      | nil =>
        obtain ⟨rfl, hrest⟩ := List.cons.inj hyielded
        have hclosed : (s.step source event).stream.isClosed = true :=
          isClosed_of_yield? hyield hlast
        exact hrest.symm.trans ((h.step event).yielded_eq_nil hclosed rest)
      | cons _ before => exact ih (h.step event) (List.cons.inj hyielded).2

/-! ### The end -/

/-- Whether an event is the end of the stream for the consumer: it gets an error, sees the end,
closes the stream or drops it.  Nobody can do that before the stream is opened. -/
def Ends (s : Session) : Event → Prop
  | .pump | .halt | .attach => False
  | .poll => s.attached = true ∧
      (s.stream.next.2 = .ended ∨ ∃ e, s.stream.next.2 = .item (.error e))
  | .close | .drop => s.holder ≠ .opening

/-- Who comes to the end of a stream that he does not have has dropped it before. -/
theorem Ends.holder_of_detached {event : Event} (h : s.Ends event) (detached : s.attached = false) :
    s.holder = .nobody := by
  have hconsumer : s.holder ≠ .consumer := of_decide_eq_false detached
  have hopened : s.holder ≠ .opening := by
    cases event with
    | pump | halt | attach => exact h.elim
    | poll => exact absurd h.1 (by rw [detached]; exact nofun)
    | close | drop => exact h
  cases hholder : s.holder with
  | opening => exact absurd hholder hopened
  | consumer => exact absurd hholder hconsumer
  | nobody => rfl

/-- The feed is dropped when the consumer comes to the end. -/
theorem Sound.isClosed_of_ends (h : s.Sound) {event : Event} (hends : s.Ends event) :
    (s.step source event).stream.isClosed = true := by
  have move := move_step source s event
  generalize s.step source event = after, s.yield? source event = yielded at move ⊢
  cases move with
  | polled => exact hends.elim
  | pumped => exact hends.elim
  | halted => exact hends.elim
  | attached opening => exact hends.elim
  | again opened => exact hends.elim
  | asked received =>
    exact (LiveStream.isClosed_next _).trans (h.stream.isClosed_of_next hends.2)
  | closed => exact LiveStream.isClosed_release _
  | dropped => exact LiveStream.isClosed_release _
  | gone detached => exact h.detached (hends.holder_of_detached detached)

/-- **The feed is dropped once, and before the end is seen.** For every source, every capacity and
every schedule the feed is dropped at most once. At every moment after the consumer got an error,
saw the end, closed the stream or dropped it, the feed is dropped and known to be. The pump polls
the feed neither after it failed or ended nor after it was dropped. -/
theorem released_once (source : Source) (capacity : Nat) (events : List Event) :
    ((start capacity).after source events).stream.drops ≤ 1 ∧
    (∀ past event future, events = past ++ event :: future →
      ((start capacity).after source past).Ends event →
        ((start capacity).after source events).stream.drops = 1 ∧
          ((start capacity).after source events).stream.isClosed = true) ∧
    (∀ before arrival after, (start capacity).yielded source events = before ++ arrival :: after →
      arrival.isLast = true → after = []) ∧
    (∀ past future, events = past ++ future →
      ((start capacity).after source past).stream.drops ≠ 0 →
        ((start capacity).after source past).yielded source future = []) := by
  have hsound (events : List Event) : ((start capacity).after source events).Sound :=
    (sound_start capacity).after events
  have hdrops (events : List Event) := (hsound events).stream.once
  refine ⟨?_, ?_, fun before arrival after hyielded hlast => ?_, ?_⟩
  · rw [hdrops]
    split_ifs <;> decide
  · rintro past event future rfl hends
    have hclosed : ((start capacity).after source (past ++ event :: future)).stream.isClosed =
        true := by
      rw [List.append_cons, after_append, after_snoc]
      exact isClosed_after ((hsound past).step event) future ((hsound past).isClosed_of_ends hends)
    exact ⟨by rw [hdrops, if_pos hclosed], hclosed⟩
  · exact (sound_start capacity).yielded_last hyielded hlast
  · rintro past future rfl hdropped
    have hclosed : ((start capacity).after source past).stream.isClosed = true := by
      by_contra hopen
      rw [hdrops, if_neg hopen] at hdropped
      exact hdropped rfl
    exact (hsound past).yielded_eq_nil hclosed future

end Step

/-- A feed that fails after one frame. -/
def brokenOff : Source := Source.ofFeed
  [⟨0, .frame ⟨.stdout, [104, 105]⟩⟩, ⟨0, .fault .timeout⟩]

/-- The consumer takes the line and the failure, and then closes the stream: by then the feed was
polled twice and dropped once. -/
theorem released_once_brokenOff :
    ((start 1).after brokenOff [.attach, .pump, .pump, .poll, .pump, .pump]).Ends .poll ∧
    ((start 1).after brokenOff
      [.attach, .pump, .pump, .poll, .pump, .pump, .poll, .close]).stream.drops = 1 ∧
    (start 1).yielded brokenOff [.attach, .pump, .pump, .poll, .pump, .pump, .poll, .close] =
      [.item (.ok ⟨.stdout, [104, 105]⟩), .item (.error .timeout)] := by
  have hends : ((start 1).after brokenOff
      [.attach, .pump, .pump, .poll, .pump, .pump]).Ends .poll :=
    ⟨rfl, .inr ⟨.ofFault .timeout, rfl⟩⟩
  obtain ⟨-, hended, -, -⟩ :=
    released_once brokenOff 1 [.attach, .pump, .pump, .poll, .pump, .pump, .poll, .close]
  exact ⟨hends, (hended _ _ _ rfl hends).1, rfl⟩

end Session

end Dockmaster
