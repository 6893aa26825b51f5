import Dockmaster.Log.History
import Dockmaster.Proofs.Log.Session
import Dockmaster.Proofs.Text.Utf8

/-!
# A historical read is all or nothing

What a feed does to a reader is said without the reader: it completes (`Feed.Completes`), or a first
failure comes at some time (`Feed.Fails`), or it falls silent (`Feed.completes_or_fails_or_hangs`).
Together with a deadline this decides what a read has to come to and when (`LogRead.Settles`).

The read follows a feed event by event. As long as the feed goes on and the deadline is not past,
nothing but the bytes and the time change (`LogRead.follow_append`), so a read that is over is over
for one of three reasons, and `LogRead.returns_ofFeed_iff` says that it is over exactly with what
the feed settles. `LogRead.lastLines_all_or_nothing` adds the opening of the feed.
-/

namespace Dockmaster

/-! ### Feeds -/

/-- The bytes that an event brings. -/
def FeedEvent.bytes : FeedEvent → List UInt8
  | .frame output => output.bytes
  | .fault _ | .silence | .nothing => []

namespace Feed

/-- The time up to the end of a feed. -/
def duration (feed : Feed) : Nat := (feed.map (·.delay)).sum

/-- The bytes of all frames of a feed, in their order. -/
def bytes (feed : Feed) : List UInt8 := feed.flatMap (·.event.bytes)

/-- A feed comes to its end without a failure. -/
def Completes (feed : Feed) : Prop := ∀ timed ∈ feed, timed.event.goesOn = true

/-- The first failure of a feed, and the time at which it comes. -/
def Fails (feed : Feed) (time : Nat) (fault : DaemonFault) : Prop :=
  ∃ (before : Feed) (delay : Nat) (after : Feed), feed = before ++ ⟨delay, .fault fault⟩ :: after ∧
    Completes before ∧ time = duration before + delay

/-- A feed falls silent before it ends or fails. -/
def Hangs (feed : Feed) : Prop :=
  ∃ (before : Feed) (delay : Nat) (after : Feed), feed = before ++ ⟨delay, .silence⟩ :: after ∧
    Completes before

theorem duration_cons (timed : TimedEvent) (feed : Feed) :
    duration (timed :: feed) = timed.delay + duration feed :=
  List.sum_cons

theorem bytes_cons (timed : TimedEvent) (feed : Feed) :
    bytes (timed :: feed) = timed.event.bytes ++ bytes feed :=
  List.flatMap_cons

theorem completes_nil : Completes [] := fun _ h => absurd h List.not_mem_nil

theorem completes_cons {timed : TimedEvent} {feed : Feed} (htimed : timed.event.goesOn = true)
    (hfeed : Completes feed) : Completes (timed :: feed) :=
  List.forall_mem_cons.mpr ⟨htimed, hfeed⟩

/-- **A feed completes, fails or hangs.** -/
theorem completes_or_fails_or_hangs (feed : Feed) :
    Completes feed ∨ (∃ time fault, Fails feed time fault) ∨ Hangs feed := by
  induction feed with
  | nil => exact .inl completes_nil
  | cons timed feed ih =>
    obtain ⟨delay, event⟩ := timed
    have hgoesOn (h : event.goesOn = true) : Completes (⟨delay, event⟩ :: feed) ∨
        (∃ time fault, Fails (⟨delay, event⟩ :: feed) time fault) ∨
          Hangs (⟨delay, event⟩ :: feed) := by
      rcases ih with hfeed | ⟨-, fault, before, delay', after, rfl, hbefore, -⟩ |
        ⟨before, delay', after, rfl, hbefore⟩
      · exact .inl (completes_cons h hfeed)
      · exact .inr (.inl ⟨_, fault, ⟨delay, event⟩ :: before, delay', after, rfl,
          completes_cons h hbefore, rfl⟩)
      · exact .inr (.inr ⟨⟨delay, event⟩ :: before, delay', after, rfl,
          completes_cons h hbefore⟩)
    cases event with
    | frame frame => exact hgoesOn rfl
    | nothing => exact hgoesOn rfl
    | fault fault =>
      exact .inr (.inl ⟨_, fault, [], delay, feed, rfl, completes_nil, rfl⟩)
    | silence => exact .inr (.inr ⟨[], delay, feed, rfl, completes_nil⟩)

end Feed

namespace LogRead

/-! ### What a read comes to -/

/-- A time is not after the deadline, if there is one. -/
def InTime (deadline : Option Nat) (time : Nat) : Prop :=
  ∀ limit, deadline = some limit → time ≤ limit

/-- What a feed and a deadline settle: the time at which a read is over, and its result. -/
inductive Settles (deadline : Option Nat) (feed : Feed) :
    Nat → Except ServiceError String → Prop
  /-- The feed completes in time: the result is the text of all its bytes. -/
  | completed (completes : feed.Completes) (inTime : InTime deadline feed.duration) :
    Settles deadline feed feed.duration (.ok (Text.Utf8.decode feed.bytes))
  /-- The feed fails in time with an interruption: the result is the fixed text. -/
  | interrupted {time : Nat} {fault : DaemonFault} {reason : String}
    (fails : feed.Fails time fault) (inTime : InTime deadline time)
    (isInterruption : ServiceError.ofFault fault = .interrupted reason) :
    Settles deadline feed time (.ok logsUnavailable)
  /-- The feed fails in time in any other way: the result is the error. -/
  | failed {time : Nat} {fault : DaemonFault} (fails : feed.Fails time fault)
    (inTime : InTime deadline time)
    (isNoInterruption : ∀ reason, ServiceError.ofFault fault ≠ .interrupted reason) :
    Settles deadline feed time (.error (.ofFault fault))
  /-- The deadline passes before either: the result is the fixed text. -/
  | expired {limit : Nat} (isDeadline : deadline = some limit)
    (incomplete : ¬ (feed.Completes ∧ feed.duration ≤ limit))
    (unfailed : ∀ time fault, feed.Fails time fault → limit < time) :
    Settles deadline feed limit (.ok logsUnavailable)

/-- A read is over at some time with a result, and has dropped its feed once. -/
def Returns (outcome : Option (Nat × LogRead)) (time : Nat)
    (result : Except ServiceError String) : Prop :=
  ∃ read, outcome = some (time, read) ∧ read.result = some result ∧ read.drops = 1

/-! ### One step after another -/

variable {deadline : Option Nat} {read : LogRead} {time : Nat}

theorem isLate_eq_false (h : InTime deadline time) : isLate deadline time = false := by
  cases deadline with
  | none => rfl
  | some limit => exact decide_eq_false (Nat.not_lt.mpr (h limit rfl))

theorem isLate_of_lt {limit : Nat} (h : limit < time) : isLate (some limit) time = true :=
  decide_eq_true h

theorem inTime_none : InTime none time := nofun

theorem inTime_some {limit : Nat} : InTime (some limit) time ↔ time ≤ limit :=
  ⟨fun h => h limit rfl, fun h _ hlimit => Option.some.inj hlimit ▸ h⟩

theorem InTime.of_le {later : Nat} (h : InTime deadline later) (hle : time ≤ later) :
    InTime deadline time :=
  fun limit hlimit => hle.trans (h limit hlimit)

/-- The deadline ends a read with the fixed text and drops its feed. -/
theorem step_expired (hopen : read.result = none) (hdrops : read.drops = 0) :
    (read.step .expired).result = some (.ok logsUnavailable) ∧
      (read.step .expired).drops = 1 := by
  obtain ⟨bytes, result, drops⟩ := read
  subst hopen hdrops
  exact ⟨rfl, rfl⟩

/-- An event after which the feed goes on adds its bytes to the read. -/
theorem follow_of_goesOn {delay : Nat} {event : FeedEvent} (rest : Feed)
    (hopen : read.result = none) (hevent : event.goesOn = true)
    (hintime : InTime deadline (time + delay)) :
    follow deadline read time (⟨delay, event⟩ :: rest) =
      follow deadline { read with bytes := read.bytes ++ event.bytes } (time + delay) rest := by
  have hlate := isLate_eq_false hintime
  cases event with
  | frame output =>
    have hstep : read.step (.frame output) =
        { read with bytes := read.bytes ++ output.bytes } := by
      rw [step, hopen]
    rw [follow, hlate, if_neg Bool.false_ne_true, hstep]
    rfl
  | nothing =>
    have hsame : read = { read with bytes := read.bytes ++ FeedEvent.nothing.bytes } := by
      change read = { read with bytes := read.bytes ++ [] }
      rw [List.append_nil]
    rw [follow, hlate, if_neg Bool.false_ne_true, ← hsame]
  | fault fault => cases hevent
  | silence => cases hevent

/-- An event after the deadline comes too late. -/
theorem follow_of_late {limit : Nat} {timed : TimedEvent} (rest : Feed)
    (hlate : limit < time + timed.delay) :
    follow (some limit) read time (timed :: rest) = some (limit, read.step .expired) := by
  obtain ⟨delay, event⟩ := timed
  cases event <;> rw [follow, isLate_of_lt hlate, if_pos rfl] <;> rfl

/-- **A feed that goes on in time** adds its bytes to the read, and nothing else. -/
theorem follow_append {before : Feed} (rest : Feed) (hopen : read.result = none)
    (hbefore : before.Completes) (hintime : InTime deadline (time + before.duration)) :
    follow deadline read time (before ++ rest) =
      follow deadline { read with bytes := read.bytes ++ before.bytes } (time + before.duration)
        rest := by
  induction before generalizing read time with
  | nil => simp [Feed.bytes, Feed.duration]
  | cons timed before ih =>
    obtain ⟨delay, event⟩ := timed
    obtain ⟨hevent, hbefore⟩ := List.forall_mem_cons.mp hbefore
    rw [Feed.duration_cons, ← Nat.add_assoc] at hintime ⊢
    have hnow := hintime.of_le (Nat.le_add_right _ _)
    rw [List.cons_append, follow_of_goesOn _ hopen hevent hnow, Feed.bytes_cons,
      ih (by exact hopen) hbefore hintime, List.append_assoc]

/-- **A feed that goes on past the deadline** is given up. -/
theorem follow_late {before : Feed} {limit : Nat} (rest : Feed) (hopen : read.result = none)
    (hdrops : read.drops = 0) (hbefore : before.Completes) (htime : time ≤ limit)
    (hlate : limit < time + before.duration) :
    Returns (follow (some limit) read time (before ++ rest)) limit (.ok logsUnavailable) := by
  induction before generalizing read time with
  | nil => exact absurd hlate (Nat.not_lt.mpr htime)
  | cons timed before ih =>
    obtain ⟨delay, event⟩ := timed
    obtain ⟨hevent, hbefore⟩ := List.forall_mem_cons.mp hbefore
    rw [Feed.duration_cons, ← Nat.add_assoc] at hlate
    rw [List.cons_append]
    by_cases hnow : limit < time + delay
    · rw [follow_of_late _ hnow]
      exact ⟨_, rfl, step_expired hopen hdrops⟩
    · rw [follow_of_goesOn _ hopen hevent (inTime_some.mpr (Nat.not_lt.mp hnow))]
      exact ih hopen hdrops hbefore (Nat.not_lt.mp hnow) hlate

/-! ### Whole reads -/

/-- A read is over in one way only. -/
theorem Returns.unique {outcome : Option (Nat × LogRead)} {time time' : Nat}
    {result result' : Except ServiceError String} (h : Returns outcome time result)
    (h' : Returns outcome time' result') : time = time' ∧ result = result' := by
  obtain ⟨read, hread, hresult, -⟩ := h
  obtain ⟨read', hread', hresult', -⟩ := h'
  rw [hread, Option.some.injEq, Prod.mk.injEq] at hread'
  obtain ⟨rfl, rfl⟩ := hread'
  rw [hresult, Option.some.injEq] at hresult'
  exact ⟨rfl, hresult'⟩

variable {feed : Feed}

/-- A new read follows a feed as far as it goes on in time. -/
theorem ofFeed_append {before : Feed} (rest : Feed) (hbefore : before.Completes)
    (hintime : InTime deadline before.duration) :
    ofFeed deadline (before ++ rest) =
      follow deadline { bytes := before.bytes } before.duration rest := by
  have hfollow : follow deadline {} 0 (before ++ rest) = _ :=
    follow_append rest rfl hbefore (by rwa [Nat.zero_add])
  rwa [Nat.zero_add] at hfollow

theorem returns_of_completes (hfeed : feed.Completes) (hintime : InTime deadline feed.duration) :
    Returns (ofFeed deadline feed) feed.duration (.ok (Text.Utf8.decode feed.bytes)) := by
  have hfollow := ofFeed_append [] hfeed hintime
  rw [List.append_nil] at hfollow
  rw [hfollow]
  exact ⟨_, rfl, rfl, rfl⟩

theorem returns_of_fails {fault : DaemonFault} (hfeed : feed.Fails time fault)
    (hintime : InTime deadline time) :
    Returns (ofFeed deadline feed) time (resultOfError (.ofFault fault)) := by
  obtain ⟨before, delay, after, rfl, hbefore, rfl⟩ := hfeed
  rw [ofFeed_append _ hbefore (hintime.of_le (Nat.le_add_right _ _)), follow,
    isLate_eq_false hintime]
  exact ⟨_, rfl, rfl, rfl⟩

/-- An event that comes too late is the deadline for the read. -/
theorem returns_of_late {before : Feed} {timed : TimedEvent} {limit : Nat} (rest : Feed)
    (hbefore : before.Completes) (hlate : limit < before.duration + timed.delay) :
    Returns (ofFeed (some limit) (before ++ timed :: rest)) limit (.ok logsUnavailable) := by
  by_cases hbeforeLate : limit < before.duration
  · exact follow_late _ rfl rfl hbefore (Nat.zero_le _) (by rwa [Nat.zero_add])
  · have hintime : InTime (some limit) before.duration :=
      inTime_some.mpr (Nat.not_lt.mp hbeforeLate)
    rw [ofFeed_append _ hbefore hintime, follow_of_late _ hlate]
    exact ⟨_, rfl, rfl, rfl⟩

theorem returns_of_expired {limit : Nat}
    (hincomplete : ¬ (feed.Completes ∧ feed.duration ≤ limit))
    (hunfailed : ∀ time fault, feed.Fails time fault → limit < time) :
    Returns (ofFeed (some limit) feed) limit (.ok logsUnavailable) := by
  rcases feed.completes_or_fails_or_hangs with hfeed | ⟨time, fault, hfails⟩ |
    ⟨before, delay, after, rfl, hbefore⟩
  · have hlate : limit < feed.duration := Nat.not_le.mp fun h => hincomplete ⟨hfeed, h⟩
    have hfollow : Returns (ofFeed (some limit) (feed ++ [])) limit (.ok logsUnavailable) :=
      follow_late [] rfl rfl hfeed (Nat.zero_le _) (by rwa [Nat.zero_add])
    rwa [List.append_nil] at hfollow
  · have hlate := hunfailed time fault hfails
    obtain ⟨before, delay, after, rfl, hbefore, rfl⟩ := hfails
    exact returns_of_late after hbefore hlate
  · by_cases hlate : limit < before.duration + delay
    · exact returns_of_late after hbefore hlate
    · have hintime : InTime (some limit) (before.duration + delay) :=
        inTime_some.mpr (Nat.not_lt.mp hlate)
      rw [ofFeed_append _ hbefore (hintime.of_le (Nat.le_add_right _ _)), follow,
        isLate_eq_false hintime]
      exact ⟨_, rfl, rfl, rfl⟩

theorem ofFeed_of_hangs (hfeed : feed.Hangs) : ofFeed none feed = none := by
  obtain ⟨before, delay, after, rfl, hbefore⟩ := hfeed
  rw [ofFeed_append _ hbefore inTime_none, follow, isLate_eq_false inTime_none]
  rfl

theorem Settles.returns {result : Except ServiceError String}
    (h : Settles deadline feed time result) : Returns (ofFeed deadline feed) time result := by
  cases h with
  | completed completes inTime => exact returns_of_completes completes inTime
  | interrupted fails inTime isInterruption =>
    have hreturns := returns_of_fails fails inTime
    rwa [isInterruption] at hreturns
  | @failed _ fault fails inTime isNoInterruption =>
    have herror : resultOfError (.ofFault fault) = .error (.ofFault fault) := by
      cases hfault : ServiceError.ofFault fault with
      | interrupted reason => exact absurd hfault (isNoInterruption reason)
      | _ => rfl
    have hreturns := returns_of_fails fails inTime
    rwa [herror] at hreturns
  | expired isDeadline incomplete unfailed =>
    subst isDeadline
    exact returns_of_expired incomplete unfailed

/-- **Every feed settles something**, unless it hangs and there is no deadline. -/
theorem exists_settles (deadline : Option Nat) (feed : Feed) :
    (∃ time result, Settles deadline feed time result) ∨ deadline = none ∧ feed.Hangs := by
  by_cases hcompleted : feed.Completes ∧ InTime deadline feed.duration
  · exact .inl ⟨_, _, .completed hcompleted.1 hcompleted.2⟩
  by_cases hfailed : ∃ time fault, feed.Fails time fault ∧ InTime deadline time
  · obtain ⟨time, fault, hfails, hintime⟩ := hfailed
    by_cases hinterrupted : ∃ reason, ServiceError.ofFault fault = .interrupted reason
    · obtain ⟨reason, hreason⟩ := hinterrupted
      exact .inl ⟨_, _, .interrupted hfails hintime hreason⟩
    · exact .inl ⟨_, _, .failed hfails hintime fun reason h => hinterrupted ⟨reason, h⟩⟩
  cases deadline with
  | some limit =>
    refine .inl ⟨_, _, .expired rfl (fun h => hcompleted ⟨h.1, inTime_some.mpr h.2⟩) ?_⟩
    exact fun time fault h => Nat.not_le.mp fun hle =>
      hfailed ⟨time, fault, h, inTime_some.mpr hle⟩
  | none =>
    rcases feed.completes_or_fails_or_hangs with hfeed | ⟨time, fault, hfails⟩ | hhangs
    · exact absurd ⟨hfeed, inTime_none⟩ hcompleted
    · exact absurd ⟨time, fault, hfails, inTime_none⟩ hfailed
    · exact .inr ⟨rfl, hhangs⟩

/-- **A read is over exactly when and with what its feed settles.** -/
theorem returns_ofFeed_iff {result : Except ServiceError String} :
    Returns (ofFeed deadline feed) time result ↔ Settles deadline feed time result := by
  refine ⟨fun h => ?_, Settles.returns⟩
  rcases exists_settles deadline feed with ⟨time', result', hsettles⟩ | ⟨rfl, hhangs⟩
  · obtain ⟨rfl, rfl⟩ := hsettles.returns.unique h
    exact hsettles
  · obtain ⟨read, hread, -⟩ := h
    rw [ofFeed_of_hangs hhangs] at hread
    cases hread

theorem ofFeed_eq_none_iff : ofFeed deadline feed = none ↔ deadline = none ∧ feed.Hangs := by
  refine ⟨fun h => ?_, ?_⟩
  · rcases exists_settles deadline feed with ⟨time, result, hsettles⟩ | hhangs
    · obtain ⟨read, hread, -⟩ := hsettles.returns
      rw [h] at hread
      cases hread
    · exact hhangs
  · rintro ⟨rfl, hhangs⟩
    exact ofFeed_of_hangs hhangs

/-- Every read that is over has a result and has dropped its feed once. -/
theorem exists_returns_of_ofFeed (h : ofFeed deadline feed = some (time, read)) :
    ∃ result, Returns (some (time, read)) time result := by
  rcases exists_settles deadline feed with ⟨time', result, hsettles⟩ | hhangs
  · have hreturns := hsettles.returns
    rw [h] at hreturns
    obtain ⟨read', hread', hresult, hdrops⟩ := hreturns
    obtain ⟨rfl, rfl⟩ := Prod.mk.inj (Option.some.inj hread')
    exact ⟨result, _, rfl, hresult, hdrops⟩
  · rw [ofFeed_eq_none_iff.mpr hhangs] at h
    cases h

/-! ### The last lines of a log -/

theorem checkTail_of_not {lines : Nat} (h : ¬ (1 ≤ lines ∧ lines ≤ 10000)) :
    checkTail lines = .error (.invalidArgument
      ("tail must be between 1 and 10000, got " ++ toString lines)) := by
  have hrange : ¬ (1 ≤ lines ∧ lines ≤ maxTail) := h
  rw [checkTail, if_neg hrange]
  rfl

/-- **The last lines of a log are read whole or not at all.**  A number of lines out of range is an
invalid argument, and no feed is opened.  Otherwise one feed is opened for them, and the read is
over exactly when and with what the feed and the deadline settle; every read that is over has
dropped the feed once, and only a silent feed without a deadline keeps one for ever.  Where the
bytes of the feed encode a text, the result is that text, wherever the frames cut the bytes. -/
theorem lastLines_all_or_nothing {σ : Type} (openFeed : σ → LogQuery → σ × Feed)
    (deadline : Option Nat) (lines : Nat) (s : σ) :
    (¬ (1 ≤ lines ∧ lines ≤ 10000) →
      lastLines openFeed deadline lines s = (s, some (0, { result := some (.error
        (.invalidArgument ("tail must be between 1 and 10000, got " ++ toString lines))) }))) ∧
    (1 ≤ lines ∧ lines ≤ 10000 →
      ∃ s' feed outcome, openFeed s (.last lines) = (s', feed) ∧
        lastLines openFeed deadline lines s = (s', outcome) ∧
        (∀ time result, Returns outcome time result ↔ Settles deadline feed time result) ∧
        (∀ time read, outcome = some (time, read) → ∃ result, Returns outcome time result) ∧
        (outcome = none ↔ deadline = none ∧ feed.Hangs) ∧
        ∀ text, feed.Completes → InTime deadline feed.duration →
          feed.bytes = Text.Utf8.encode text → Returns outcome feed.duration (.ok text)) := by
  refine ⟨fun h => ?_, fun h => ⟨_, _, _, rfl, ?_, fun _ _ => returns_ofFeed_iff, ?_,
    ofFeed_eq_none_iff, ?_⟩⟩
  · rw [lastLines, checkTail_of_not h]
  · have hrange : 1 ≤ lines ∧ lines ≤ maxTail := h
    rw [lastLines, checkTail, if_pos hrange]
  · intro time read hread
    rw [hread]
    exact exists_returns_of_ofFeed hread
  · intro text hcompletes hintime hbytes
    have hsettles := Settles.completed hcompletes hintime
    rw [hbytes, Text.Utf8.decode_encode] at hsettles
    exact hsettles.returns

/-- A character that is cut between two frames comes out whole. -/
theorem lastLines_all_or_nothing_cutCharacter :
    ∃ outcome, lastLines (fun (opened : Nat) _ => (opened + 1,
        [⟨0, .frame ⟨.stdout, [0xC3]⟩⟩, ⟨100, .frame ⟨.stdout, [0xA9]⟩⟩])) (some 500) 10 0 =
        (1, outcome) ∧ Returns outcome 100 (.ok "é") := by
  obtain ⟨s', feed, outcome, hopen, hread, -, -, -, htext⟩ :=
    (lastLines_all_or_nothing (fun (opened : Nat) _ => (opened + 1,
      [⟨0, .frame ⟨.stdout, [0xC3]⟩⟩, ⟨100, .frame ⟨.stdout, [0xA9]⟩⟩])) (some 500) 10 0).2
      (by decide)
  obtain ⟨rfl, rfl⟩ := Prod.mk.inj hopen
  refine ⟨outcome, hread, htext "é" ?_ (inTime_some.mpr (by decide)) (by decide)⟩
  simp [Feed.Completes, FeedEvent.goesOn]

end LogRead

end Dockmaster
