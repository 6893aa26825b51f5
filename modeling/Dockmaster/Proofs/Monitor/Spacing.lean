import Dockmaster.Proofs.Monitor.Activity
import Mathlib.Data.List.Chain

/-!
# How far checks are apart

However long requests take and whichever of them fail, what falls due during a check is not made up
for: after a late tick the ticker waits for a whole period, and a tick that is handled in time, or a
little later, was due one period after the last. So two checks of one kind are a period apart, less
what a ticker tolerates (`Spaced`). A check begins when the one before it has ended (`OneAtATime`).
While one is under way nothing else comes to pass, whenever the shutdown is due
(`Runs.ends_first`). `checks_never_burst` puts this together for all runs of a monitor, and
`MeteredDaemon.runMonitor_spaced` says it of the monitor that is executed.
-/

namespace Dockmaster

namespace Monitor

namespace Setting

variable {σ : Type} {w : Setting σ}

/-! ### Checks of one kind -/

/-- **The checks of one kind are apart** by their period, less what a ticker tolerates. -/
structure Spaced (period : Check → Nat) (m : Monitor) (beginnings : List (Beginning σ)) : Prop where
  /-- The periods of the tickers stay as they are. -/
  period_eq : ∀ check, (m.ticker check).period = period check
  /-- Those that began are apart. -/
  apart : ∀ check, (startsOf check beginnings).IsChain fun earlier later =>
    earlier + period check ≤ later + Ticker.tolerance
  /-- The last of them and the time at which the next is due are apart. -/
  next_apart : ∀ check, ∀ last ∈ (startsOf check beginnings).getLast?,
    last + period check ≤ (m.ticker check).next + Ticker.tolerance

namespace Spaced

variable {period : Check → Nat} {m : Monitor} {beginnings : List (Beginning σ)}

theorem nil (m : Monitor) :
    Spaced (fun check => (m.ticker check).period) m ([] : List (Beginning σ)) where
  period_eq _ := rfl
  apart _ := .nil
  next_apart _ _ h := nomatch h

theorem movedTo (h : Spaced period m beginnings) (now : Nat) :
    Spaced period (m.movedTo now) beginnings where
  period_eq check := by
    rw [ticker_movedTo]
    exact h.period_eq check
  apart := h.apart
  next_apart check := by
    rw [ticker_movedTo]
    exact h.next_apart check

/-- A check that is due can be taken. -/
theorem after (h : Spaced period m beginnings) {check : Check} {began : Nat}
    (due : (m.ticker check).next ≤ began) (duration : Nat) (found : σ) :
    Spaced period (m.after check began duration) (beginnings ++ [⟨check, began, found⟩]) where
  period_eq other := by
    rw [period_ticker_after]
    exact h.period_eq other
  apart other := by
    by_cases hother : check = other
    · subst hother
      rw [startsOf_concat]
      refine List.isChain_append.mpr ⟨h.apart check, .singleton began, ?_⟩
      rintro last hlast _ ⟨⟩
      have := h.next_apart check last hlast
      omega
    · rw [startsOf_concat_of_ne beginnings hother]
      exact h.apart other
  next_apart other := by
    by_cases hother : check = other
    · subst hother
      rw [startsOf_concat, List.getLast?_concat, ticker_after, ← h.period_eq check]
      rintro _ ⟨⟩
      exact (m.ticker check).add_period_le_next_handle began
    · rw [startsOf_concat_of_ne beginnings hother, ticker_after_of_ne m hother]
      exact h.next_apart other

end Spaced

/-- **In every run the checks of one kind are apart.** -/
theorem Runs.spaced {m : Monitor} {s : σ} {turns : List (Turn σ)} {activity : Activity σ}
    (runs : w.Runs ⟨m, s, .waiting⟩ turns activity) :
    Spaced (fun check => (m.ticker check).period) activity.monitor (activity.beginnings turns) := by
  apply runs.keeps (P := Spaced fun check => (m.ticker check).period) (.nil m)
  · intro m beginnings check s h ready
    have hdue : (m.ticker check).next ≤ m.wake w.stop := of_decide_eq_true ready
    exact h.after hdue 0 s
  · exact fun _ _ _ _ h => h.movedTo _
  · exact fun _ _ h _ => h.movedTo _

/-- Two checks of one kind are a period apart, less 5 milliseconds. -/
theorem Runs.apart {updatePeriod healthPeriod : Nat} {s : σ} {turns : List (Turn σ)}
    {activity : Activity σ}
    (runs : w.Runs ⟨start updatePeriod healthPeriod, s, .waiting⟩ turns activity) :
    ((startsOf .updates (activity.beginnings turns)).IsChain fun earlier later =>
      earlier + updatePeriod ≤ later + 5) ∧
    ((startsOf .health (activity.beginnings turns)).IsChain fun earlier later =>
      earlier + healthPeriod ≤ later + 5) := by
  -- a ticker takes a period of zero for one millisecond
  constructor
  · refine (runs.spaced.apart .updates).imp fun earlier later h => ?_
    have hperiod : updatePeriod ≤ max 1 updatePeriod := Nat.le_max_right ..
    exact (Nat.add_le_add_left hperiod earlier).trans h
  · refine (runs.spaced.apart .health).imp fun earlier later h => ?_
    have hperiod : healthPeriod ≤ max 1 healthPeriod := Nat.le_max_right ..
    exact (Nat.add_le_add_left hperiod earlier).trans h

/-! ### One check at a time -/

theorem le_wake (m : Monitor) (stop : Nat) : m.now ≤ m.wake stop := Nat.le_max_left ..

/-- **There is one check at a time.** -/
structure OneAtATime (turns : List (Turn σ)) (activity : Activity σ) : Prop where
  /-- A check begins when those before it have ended. -/
  ordered : turns.Pairwise fun earlier later => earlier.ended ≤ later.began
  /-- A check ends after it began. -/
  lasts : ∀ turn ∈ turns, turn.began ≤ turn.ended
  /-- All that were carried out have ended. -/
  past : ∀ turn ∈ turns, turn.ended ≤ activity.monitor.now
  /-- So they had when the one that is under way began. -/
  underWay : ∀ beginning ∈ activity.doing.underWay?,
    beginning.began ≤ activity.monitor.now ∧ ∀ turn ∈ turns, turn.ended ≤ beginning.began

/-- Whatever the monitor does next, there is one check at a time. -/
theorem Moves.oneAtATime {activity next : Activity σ} {turn? : Option (Turn σ)}
    {turns : List (Turn σ)} (moves : w.Moves activity turn? next) (h : OneAtATime turns activity) :
    OneAtATime (turns ++ turn?.toList) next := by
  cases moves with
  | @begins m s check ready =>
    rw [Option.toList_none, List.append_nil]
    have hpast : ∀ turn ∈ turns, turn.ended ≤ m.wake w.stop :=
      fun turn hmem => (h.past turn hmem).trans (le_wake m w.stop)
    refine ⟨h.ordered, h.lasts, ?_, ?_⟩
    · rw [now_after]
      exact hpast
    · rintro _ ⟨⟩
      exact ⟨(now_after m check (m.wake w.stop) 0).ge, hpast⟩
  | @goesOn m s s' now beginning op next served _ =>
    rw [Option.toList_none, List.append_nil]
    have hnow : m.now ≤ now := by
      have := le_timed_after w s m.now op
      rwa [served] at this
    refine ⟨h.ordered, h.lasts, fun turn hmem => (h.past turn hmem).trans hnow, ?_⟩
    rintro _ ⟨⟩
    obtain ⟨hbegan, hearlier⟩ := h.underWay beginning rfl
    exact ⟨hbegan.trans hnow, hearlier⟩
  | @ends m s s' now beginning op outcome served _ =>
    have hnow : m.now ≤ now := by
      have := le_timed_after w s m.now op
      rwa [served] at this
    obtain ⟨hbegan, hearlier⟩ := h.underWay beginning rfl
    refine ⟨List.pairwise_append.mpr ⟨h.ordered, List.pairwise_singleton .., ?_⟩, ?_, ?_, nofun⟩
    · intro turn hmem _ hlast
      rw [List.mem_singleton.mp hlast]
      exact hearlier turn hmem
    · intro turn hmem
      rcases List.mem_append.mp hmem with hmem | hlast
      · exact h.lasts turn hmem
      · rw [List.mem_singleton.mp hlast]
        exact hbegan.trans hnow
    · intro turn hmem
      rcases List.mem_append.mp hmem with hmem | hlast
      · exact (h.past turn hmem).trans hnow
      · rw [List.mem_singleton.mp hlast]
        exact Nat.le_refl now
  | @stops m s due =>
    rw [Option.toList_none, List.append_nil]
    exact ⟨h.ordered, h.lasts, fun turn hmem => (h.past turn hmem).trans (le_wake m w.stop), nofun⟩

/-- **In every run there is one check at a time.** -/
theorem Runs.oneAtATime {m : Monitor} {s : σ} {turns : List (Turn σ)} {activity : Activity σ}
    (runs : w.Runs ⟨m, s, .waiting⟩ turns activity) : OneAtATime turns activity := by
  induction runs with
  | first => exact ⟨.nil, nofun, nofun, nofun⟩
  | move runs moves ih => exact moves.oneAtATime ih

/-! ### A check is not cut short -/

/-- The beginning of a check decides how it ends. -/
theorem IsWhole.eq {turn other : Turn σ} (h : w.IsWhole turn) (hother : w.IsWhole other)
    (same : turn.toBeginning = other.toBeginning) : turn = other := by
  obtain ⟨beginning, ended, left, outcome⟩ := turn
  obtain ⟨_, ended', left', outcome'⟩ := other
  cases same
  have hends : ((left, ended), outcome) = ((left', ended'), outcome') := h.symm.trans hother
  cases hends
  rfl

/-- **While a check is under way nothing else comes to pass**: what follows is still in the midst of
it, or it is the first that was carried out. -/
theorem Runs.ends_first {activity later : Activity σ} {rest : List (Turn σ)}
    (runs : w.Runs activity rest later) (keeping : w.InKeeping activity) {turn : Turn σ}
    (whole : w.IsWhole turn) (underWay : activity.doing.underWay? = some turn.toBeginning) :
    rest = [] ∧ later.doing.underWay? = some turn.toBeginning ∨ rest.head? = some turn := by
  induction runs with
  | first => exact .inl ⟨rfl, underWay⟩
  | @move turns before later turn? runs moves ih =>
    rcases ih with ⟨rfl, hunderWay⟩ | hhead
    · cases moves with
      | begins _ => cases hunderWay
      | goesOn _ _ => exact .inl ⟨rfl, hunderWay⟩
      | @ends m s s' now beginning op outcome served finished =>
        -- the check that ends is whole, and so the same as `turn`
        have hwhole : w.IsWhole ⟨beginning, now, s', outcome⟩ :=
          (Moves.inKeeping (.ends served finished) (runs.whole keeping).1).2 _ rfl
        exact .inr (congrArg some (hwhole.eq whole (Option.some.inj hunderWay)))
      | stops _ => cases hunderWay
    · exact .inr (by rw [List.head?_append, hhead, Option.some_or])

/-- **Slow checks never cause a burst.** In every run of a monitor, two checks of one kind are a
period apart, less 5 milliseconds; a check begins when those before it have ended; and every check
is carried out as a whole: one that is under way can go on to its end, and there is no other way on,
whenever the shutdown is due. -/
theorem checks_never_burst (w : Setting σ) {updatePeriod healthPeriod : Nat} {s : σ}
    {turns : List (Turn σ)} {activity : Activity σ}
    (runs : w.Runs ⟨start updatePeriod healthPeriod, s, .waiting⟩ turns activity) :
    ((startsOf .updates (activity.beginnings turns)).IsChain fun earlier later =>
      earlier + updatePeriod ≤ later + 5) ∧
    ((startsOf .health (activity.beginnings turns)).IsChain fun earlier later =>
      earlier + healthPeriod ≤ later + 5) ∧
    (turns.Pairwise fun earlier later => earlier.ended ≤ later.began) ∧
    (∀ beginning ∈ activity.doing.underWay?, ∀ turn ∈ turns, turn.ended ≤ beginning.began) ∧
    (∀ turn ∈ turns, turn.began ≤ turn.ended ∧ w.IsWhole turn) ∧
    ∀ beginning op, activity.doing = .checking beginning op →
      ∃ turn, turn.toBeginning = beginning ∧ w.IsWhole turn ∧
        w.Runs activity [turn] ⟨activity.monitor.movedTo turn.ended, turn.left, .waiting⟩ ∧
        ∀ rest later, w.Runs activity rest later →
          rest = [] ∧ later.doing.underWay? = some beginning ∨ rest.head? = some turn := by
  obtain ⟨hupdates, hhealth⟩ := runs.apart
  have hone := runs.oneAtATime
  obtain ⟨hkeeping, hwhole⟩ := runs.whole (w.inKeeping_waiting _ s)
  refine ⟨hupdates, hhealth, hone.ordered, fun beginning h => (hone.underWay beginning h).2,
    fun turn h => ⟨hone.lasts turn h, hwhole turn h⟩, ?_⟩
  intro beginning op hchecking
  obtain ⟨m, s', doing⟩ := activity
  cases hchecking
  obtain ⟨⟨⟨left, ended⟩, outcome⟩, hdone⟩ :
    ∃ done, Operation.run w.guard w.timed (s', m.now) op = done := ⟨_, rfl⟩
  have hturn : w.IsWhole ⟨beginning, ended, left, outcome⟩ :=
    (hkeeping beginning op rfl).trans hdone
  exact ⟨⟨beginning, ended, left, outcome⟩, rfl, hturn, Runs.first.carried hdone,
    fun rest later hrest => hrest.ends_first hkeeping hturn rfl⟩

/-- A daemon that cannot be reached, which takes 5 milliseconds to find out. -/
def unreachable : Setting Unit where
  guard := ⟨[]⟩
  server _ _ := ((), .error (.exchange .connect))
  latency _ _ := 5
  stop := 1002

/-- Of two health checks of a monitor with periods of one second, the first is 5 milliseconds late
and the second is not; the second outlasts the shutdown. -/
theorem checks_never_burst_unreachable :
    ∃ turns activity, unreachable.Runs ⟨start 1000 1000, (), .waiting⟩ turns activity ∧
      startsOf .health (activity.beginnings turns) = [5, 1000] ∧
      [5, 1000].IsChain (fun earlier later => earlier + 1000 ≤ later + 5) ∧
      ∃ turn, turn.toBeginning = ⟨.health, 1000, ()⟩ ∧ unreachable.stop < turn.ended ∧
        unreachable.Runs activity [turn]
          ⟨activity.monitor.movedTo turn.ended, turn.left, .waiting⟩ := by
  have hlate := Runs.first.move (@Moves.begins _ unreachable (start 1000 1000) () .updates rfl)
    |>.move (.ends rfl rfl) |>.move (@Moves.begins _ unreachable _ () .health rfl)
    |>.move (.ends rfl rfl)
  have hruns := hlate.move (@Moves.begins _ unreachable _ () .health rfl)
  obtain ⟨-, hchain, -, -, -, hnot⟩ := checks_never_burst unreachable hruns
  obtain ⟨turn, hbegins, -, hends, hfirst⟩ := hnot _ _ rfl
  have hlast : some _ = some turn := (hfirst _ _ (.move .first (.ends rfl rfl))).resolve_left nofun
  have hended : turn.ended = 1005 := congrArg Turn.ended (Option.some.inj hlast).symm
  refine ⟨_, _, hruns, rfl, hchain, turn, hbegins, ?_, hends⟩
  rw [hended]
  decide

end Setting

end Monitor

/-! ### The metered daemon -/

/-- **A monitor that watches a metered daemon** spaces its checks: what `runMonitor` carries out is a
run in which two checks of one kind are a period apart, less 5 milliseconds, and each check is
carried out as a whole, after those before it have ended. -/
theorem MeteredDaemon.runMonitor_spaced (guard : Guard) (stop updatePeriod healthPeriod : Nat)
    (metered : MeteredDaemon) :
    ∃ turns m,
      (setting guard stop).Runs ⟨.start updatePeriod healthPeriod, metered, .waiting⟩ turns
        ⟨m, (runMonitor guard stop (.start updatePeriod healthPeriod) metered).2, .returned⟩ ∧
      m.now = (runMonitor guard stop (.start updatePeriod healthPeriod) metered).1 ∧
      ((Monitor.startsOf .updates (turns.map Monitor.Turn.toBeginning)).IsChain
        fun earlier later => earlier + updatePeriod ≤ later + 5) ∧
      ((Monitor.startsOf .health (turns.map Monitor.Turn.toBeginning)).IsChain
        fun earlier later => earlier + healthPeriod ≤ later + 5) ∧
      (turns.Pairwise fun earlier later => earlier.ended ≤ later.began) ∧
      ∀ turn ∈ turns, turn.began ≤ turn.ended ∧ (setting guard stop).IsWhole turn := by
  obtain ⟨turns, m, hruns, hnow⟩ :=
    exists_runs_runMonitor guard stop (.start updatePeriod healthPeriod) metered
  obtain ⟨hupdates, hhealth⟩ := hruns.apart
  -- no check is under way any more
  rw [Monitor.Activity.beginnings, Monitor.Doing.underWay?, Option.toList_none,
    List.append_nil] at hupdates hhealth
  have hwhole := (hruns.whole (Monitor.Setting.inKeeping_waiting _ _ metered)).2
  exact ⟨turns, m, hruns, hnow, hupdates, hhealth, hruns.oneAtATime.ordered,
    fun turn hmem => ⟨hruns.oneAtATime.lasts turn hmem, hwhole turn hmem⟩⟩

end Dockmaster
