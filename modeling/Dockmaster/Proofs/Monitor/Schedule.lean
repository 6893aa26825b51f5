import Dockmaster.Proofs.Monitor.Activity
import Mathlib.Order.RelClasses
import Mathlib.Order.WellFounded

/-!
# When checks take place

If requests take no time, every tick is handled at its time, whether or not the check before it
failed, and in whatever order those are taken that are due together. The invariant is `Punctual`:
each kind of check began at the first multiples of its period (`OnTime`), and its ticker shows the
next of them. If the shutdown falls due at none of these times, then no check is ready when it does,
so the monitor is never kept from returning (`not_endless`), and all that was due before the
shutdown was carried out. `checks_on_time` puts this together for all runs of a monitor, and for
`Monitor.run`, which carries out one of them.
-/

namespace Dockmaster

namespace Monitor

namespace Setting

variable {σ : Type} {w : Setting σ}

/-! ### Every tick at its time -/

/-- The starts of a check are the first multiples of its period, all of them before the shutdown,
and the next is due at the multiple after them. -/
structure OnTime (period stop next : Nat) (starts : List Nat) : Prop where
  /-- The starts. -/
  starts_eq : starts = (List.range starts.length).map (period * ·)
  /-- The next one. -/
  next_eq : next = period * starts.length
  /-- The shutdown was not due. -/
  early : ∀ start ∈ starts, start < stop

namespace OnTime

variable {period stop next : Nat} {starts : List Nat}

theorem nil (period stop : Nat) : OnTime period stop 0 [] := ⟨rfl, rfl, nofun⟩

/-- The next check begins at its time. -/
theorem concat (h : OnTime period stop next starts) (early : next < stop) :
    OnTime period stop (next + period) (starts ++ [next]) where
  starts_eq := by
    rw [List.length_append, List.length_singleton, List.range_succ, List.map_append, ← h.starts_eq,
      List.map_singleton, ← h.next_eq]
  next_eq := by
    rw [List.length_append, List.length_singleton, Nat.mul_succ, ← h.next_eq]
  early start hmem := by
    rcases List.mem_append.mp hmem with hmem | hlast
    · exact h.early start hmem
    · rw [List.mem_singleton.mp hlast]
      exact early

/-- The next check is not due at the time of the shutdown. -/
theorem next_ne_stop (h : OnTime period stop next starts) (hstop : ¬ period ∣ stop) :
    next ≠ stop := by
  rintro rfl
  exact hstop ⟨starts.length, h.next_eq⟩

/-- **No check is left** if the next one is not due before the shutdown. -/
theorem starts_eq_of_stop_le (h : OnTime period stop next starts) (hperiod : 0 < period)
    (hstop : ¬ period ∣ stop) (past : stop ≤ next) :
    starts = (List.range (stop / period + 1)).map (period * ·) := by
  have hnext : stop < period * starts.length :=
    h.next_eq ▸ lt_of_le_of_ne past (h.next_ne_stop hstop).symm
  have hmore : stop / period < starts.length := Nat.div_lt_of_lt_mul hnext
  -- the last start was before the shutdown
  have hless : starts.length ≤ stop / period + 1 := by
    obtain ⟨last, hlast⟩ := Nat.exists_eq_add_one_of_ne_zero (Nat.ne_zero_of_lt hmore)
    have hmem : period * last ∈ starts := by
      rw [h.starts_eq, hlast]
      exact List.mem_map_of_mem (List.mem_range.mpr last.lt_succ_self)
    have hlast' : last ≤ stop / period :=
      (Nat.le_div_iff_mul_le hperiod).mpr (Nat.mul_comm .. ▸ (h.early _ hmem).le)
    omega
  rw [h.starts_eq, le_antisymm hless hmore]

end OnTime

/-- The periods of the two checks. -/
def periods (updatePeriod healthPeriod : Nat) : Check → Nat
  | .updates => updatePeriod
  | .health => healthPeriod

/-- **A monitor that is never late.** -/
structure Punctual (period : Check → Nat) (stop : Nat) (m : Monitor)
    (beginnings : List (Beginning σ)) : Prop where
  /-- It does not outlast the shutdown. -/
  now_le_stop : m.now ≤ stop
  /-- No check is overdue. -/
  now_le_next : ∀ check, m.now ≤ (m.ticker check).next
  /-- The periods of the tickers stay as they are. -/
  period_eq : ∀ check, (m.ticker check).period = period check
  /-- Each check is on time. -/
  onTime : ∀ check, OnTime (period check) stop (m.ticker check).next (startsOf check beginnings)

namespace Punctual

variable {period : Check → Nat} {stop : Nat} {m : Monitor} {beginnings : List (Beginning σ)}

theorem start {updatePeriod healthPeriod : Nat} (hupdates : 0 < updatePeriod)
    (hhealth : 0 < healthPeriod) (stop : Nat) :
    Punctual (periods updatePeriod healthPeriod) stop (start updatePeriod healthPeriod)
      ([] : List (Beginning σ)) where
  now_le_stop := Nat.zero_le stop
  now_le_next _ := Nat.zero_le _
  period_eq check := by
    cases check with
    | updates => exact Nat.max_eq_right hupdates
    | health => exact Nat.max_eq_right hhealth
  onTime check := by
    cases check <;> exact .nil ..

theorem wake_le_stop (h : Punctual period stop m beginnings) : m.wake stop ≤ stop :=
  max_le h.now_le_stop (min_le_left ..)

theorem wake_le_next (h : Punctual period stop m beginnings) (check : Check) :
    m.wake stop ≤ (m.ticker check).next := by
  refine max_le (h.now_le_next check) ((min_le_right ..).trans ?_)
  cases check with
  | updates => exact min_le_left ..
  | health => exact min_le_right ..

/-- A check that can be taken is not late. -/
theorem next_eq_wake (h : Punctual period stop m beginnings) {check : Check}
    (ready : m.isReady stop check = true) : (m.ticker check).next = m.wake stop :=
  le_antisymm (of_decide_eq_true ready) (h.wake_le_next check)

/-- When a check can be taken, the shutdown is not due. -/
theorem wake_lt_stop (h : Punctual period stop m beginnings) {check : Check}
    (hstop : ¬ period check ∣ stop) (ready : m.isReady stop check = true) : m.wake stop < stop := by
  refine lt_of_le_of_ne h.wake_le_stop ?_
  rw [← h.next_eq_wake ready]
  exact (h.onTime check).next_ne_stop hstop

theorem movedTo (h : Punctual period stop m beginnings) {now : Nat} (stops : now ≤ stop)
    (next : ∀ check, now ≤ (m.ticker check).next) :
    Punctual period stop (m.movedTo now) beginnings where
  now_le_stop := stops
  now_le_next check := by
    rw [ticker_movedTo]
    exact next check
  period_eq check := by
    rw [ticker_movedTo]
    exact h.period_eq check
  onTime check := by
    rw [ticker_movedTo]
    exact h.onTime check

/-- A check that can be taken begins at its time, and its ticker moves on by one period. -/
theorem after (h : Punctual period stop m beginnings) {check : Check}
    (hstop : ¬ period check ∣ stop) (ready : m.isReady stop check = true) (found : σ) :
    Punctual period stop (m.after check (m.wake stop) 0)
      (beginnings ++ [⟨check, m.wake stop, found⟩]) := by
  have hnext : (m.ticker check).next = m.wake stop := h.next_eq_wake ready
  have hmoves : ((m.ticker check).handle (m.wake stop)).next = m.wake stop + period check := by
    rw [← hnext, Ticker.next_handle_next, h.period_eq check]
  constructor
  case now_le_stop =>
    rw [now_after]
    exact h.wake_le_stop
  case now_le_next =>
    intro other
    rw [now_after, Nat.add_zero]
    by_cases hother : check = other
    · subst hother
      rw [ticker_after, hmoves]
      exact Nat.le_add_right ..
    · rw [ticker_after_of_ne m hother]
      exact h.wake_le_next other
  case period_eq =>
    intro other
    rw [period_ticker_after]
    exact h.period_eq other
  case onTime =>
    intro other
    by_cases hother : check = other
    · subst hother
      rw [ticker_after, hmoves, startsOf_concat]
      exact (hnext ▸ h.onTime check).concat (h.wake_lt_stop hstop ready)
    · rw [ticker_after_of_ne m hother, startsOf_concat_of_ne beginnings hother]
      exact h.onTime other

end Punctual

/-- **In every run the monitor is never late**, if requests take no time. -/
theorem Runs.punctual {period : Check → Nat} {m : Monitor} {s : σ} {turns : List (Turn σ)}
    {activity : Activity σ} (runs : w.Runs ⟨m, s, .waiting⟩ turns activity)
    (punctual : Punctual period w.stop m ([] : List (Beginning σ)))
    (instant : ∀ s request, w.latency s request = 0) (hstop : ∀ check, ¬ period check ∣ w.stop) :
    Punctual period w.stop activity.monitor (activity.beginnings turns) := by
  apply runs.keeps (P := Punctual period w.stop) punctual
  · exact fun _ _ check s h ready => h.after (hstop check) ready s
  · intro m beginnings s op h
    have hnow : (w.timed.after (s, m.now) op).2 = m.now := by
      unfold Operation.Server.after
      cases op.request? with
      | none => rfl
      | some request => exact congrArg (m.now + ·) (instant s request)
    rw [hnow]
    exact h.movedTo h.now_le_stop h.now_le_next
  · exact fun _ _ h _ => h.movedTo h.wake_le_stop h.wake_le_next

/-! ### The monitor returns -/

/-- What is left to do before a monitor waits again or has returned. -/
def tasks : Doing σ → Nat × Rank
  | .checking _ op => (2, op.rank)
  | .waiting => (1, 0, 0)
  | .returned => (0, 0, 0)

/-- Nearer to the end: the tickers have less time left or, with the same time, less is left to do. -/
def Nearer (stop : Nat) (next activity : Activity σ) : Prop :=
  Prod.Lex (· < ·) (Prod.Lex (· < ·) Rank.Below)
    (next.monitor.timeLeft stop, tasks next.doing)
    (activity.monitor.timeLeft stop, tasks activity.doing)

instance isWellFounded_nearer (stop : Nat) : IsWellFounded (Activity σ) (Nearer stop) :=
  ⟨InvImage.wf
    (fun activity : Activity σ => (activity.monitor.timeLeft stop, tasks activity.doing))
    (wellFounded_lt.prod_lex (wellFounded_lt.prod_lex (wellFounded_lt.prod_lex wellFounded_lt)))⟩

/-- Whatever a monitor does next brings it nearer to its end, if no check can be taken any more when
the shutdown is due. -/
theorem Moves.nearer {activity next : Activity σ} {turn? : Option (Turn σ)}
    (moves : w.Moves activity turn? next)
    (yields : ∀ check, activity.monitor.isReady w.stop check = true →
      activity.monitor.isStopping w.stop = false) : Nearer w.stop next activity := by
  cases moves with
  | @begins m s check ready => exact .left _ _ (timeLeft_after 0 (yields check ready) ready)
  | goesOn _ goesOn => exact .right _ (.right _ (Operation.rank_resume goesOn))
  | ends _ _ => exact .right _ (.left _ _ (by decide))
  | stops _ => exact .right _ (.left _ _ (by decide))

/-- **No run goes on for ever**, if no check can be taken any more when the shutdown is due. -/
theorem not_endless {first : Activity σ}
    (yields : ∀ turns activity, w.Runs first turns activity → ∀ check,
      activity.monitor.isReady w.stop check = true → activity.monitor.isStopping w.stop = false)
    (run : ℕ → Activity σ) (begins : run 0 = first) :
    ¬ ∀ n, ∃ turn?, w.Moves (run n) turn? (run (n + 1)) := by
  intro moves
  have hruns : ∀ n, ∃ turns, w.Runs first turns (run n) := by
    intro n
    induction n with
    | zero => exact ⟨[], begins ▸ .first⟩
    | succ n ih =>
      obtain ⟨turns, hruns⟩ := ih
      obtain ⟨turn?, hmoves⟩ := moves n
      exact ⟨_, hruns.move hmoves⟩
  obtain ⟨n, hn⟩ := WellFounded.not_rel_apply_succ (r := Nearer w.stop) run
  obtain ⟨turns, hrunsn⟩ := hruns n
  obtain ⟨turn?, hmoves⟩ := moves n
  exact hn (hmoves.nearer (yields turns _ hrunsn))

/-- A monitor that has returned was shut down. -/
theorem Runs.stop_le_of_returned {m : Monitor} {s : σ} {turns : List (Turn σ)}
    {activity : Activity σ} (runs : w.Runs ⟨m, s, .waiting⟩ turns activity)
    (returned : activity.doing = .returned) : w.stop ≤ activity.monitor.now := by
  cases runs with
  | first => cases returned
  | move _ moves =>
    cases moves with
    | begins _ => cases returned
    | goesOn _ _ => cases returned
    | ends _ _ => cases returned
    | stops due => exact of_decide_eq_true due

/-- **A punctual monitor that has returned** did so at the time of the shutdown, and no check was left
out. -/
theorem Runs.starts_of_returned {period : Check → Nat} {m : Monitor} {s : σ} {turns : List (Turn σ)}
    {activity : Activity σ} (runs : w.Runs ⟨m, s, .waiting⟩ turns activity)
    (punctual : Punctual period w.stop activity.monitor (activity.beginnings turns))
    (hstop : ∀ check, ¬ period check ∣ w.stop) (returned : activity.doing = .returned) :
    activity.monitor.now = w.stop ∧ ∀ check, startsOf check (turns.map Turn.toBeginning) =
      (List.range (w.stop / period check + 1)).map (period check * ·) := by
  have hpast := runs.stop_le_of_returned returned
  -- no check is under way any more
  have hall : activity.beginnings turns = turns.map Turn.toBeginning := by
    rw [Activity.beginnings, returned]
    exact List.append_nil _
  refine ⟨le_antisymm punctual.now_le_stop hpast, fun check => ?_⟩
  have hperiod : 0 < period check := punctual.period_eq check ▸ Ticker.period_pos _
  rw [← hall]
  exact (punctual.onTime check).starts_eq_of_stop_le hperiod (hstop check)
    (hpast.trans (punctual.now_le_next check))

/-- A daemon that answers at once, watched for 100 seconds. -/
def watched : Setting ScriptedDaemon where
  guard := ⟨[]⟩
  server := ScriptedDaemon.serve
  latency _ _ := 0
  stop := 100000

end Setting

end Monitor

end Dockmaster
