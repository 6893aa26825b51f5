import Dockmaster.Daemon.Metered
import Dockmaster.Proofs.Operation.Alone

/-!
# What a monitor does

`Monitor.run` takes the checks in a fixed order and each of them as a whole. Here a monitor goes on
request by request (`Setting.Moves`), and when more than one thing is due any of them may come next.
`Setting.Runs` are the runs that this makes possible, with the checks that were carried out; whether
a run has returned, waits, or is in the midst of a check is seen from its `Activity`.

Nothing but the check itself moves a monitor that is in the midst of one, so the check comes to its
end (`Runs.carried`) and is the same as if it were carried out alone (`Runs.whole`). The run that
`Monitor.run` carries out is one of these runs (`exists_runs_run`).
-/

namespace Dockmaster

namespace Monitor

/-! ### Time passes -/

/-- The monitor at another time. -/
def movedTo (m : Monitor) (now : Nat) : Monitor := { m with now }

@[simp] theorem ticker_movedTo (m : Monitor) (now : Nat) (check : Check) :
    (m.movedTo now).ticker check = m.ticker check := by
  cases check <;> rfl

@[simp] theorem now_after (m : Monitor) (check : Check) (began duration : Nat) :
    (m.after check began duration).now = began + duration := by
  cases check <;> rfl

@[simp] theorem ticker_after (m : Monitor) (check : Check) (began duration : Nat) :
    (m.after check began duration).ticker check = (m.ticker check).handle began := by
  cases check <;> rfl

/-- A check leaves the ticker of the other one as it is. -/
theorem ticker_after_of_ne (m : Monitor) {check other : Check} (h : check ≠ other)
    (began duration : Nat) :
    (m.after check began duration).ticker other = m.ticker other := by
  cases check <;> cases other <;> first | rfl | exact absurd rfl h

/-- The periods stay as they are. -/
@[simp] theorem period_ticker_after (m : Monitor) (check other : Check) (began duration : Nat) :
    ((m.after check began duration).ticker other).period = (m.ticker other).period := by
  cases check <;> cases other <;> rfl

/-- That a check takes time only moves the time on. -/
theorem movedTo_after (m : Monitor) (check : Check) (began duration : Nat) :
    (m.after check began 0).movedTo (began + duration) = m.after check began duration := by
  cases check <;> rfl

/-! ### Activities -/

/-- How a check begins. -/
structure Beginning (σ : Type) where
  /-- The check. -/
  check : Check
  /-- The time. -/
  began : Nat
  /-- The daemon as the check finds it. -/
  found : σ

/-- A check that was carried out. -/
structure Turn (σ : Type) extends Beginning σ where
  /-- The time at which it ended. -/
  ended : Nat
  /-- The daemon as the check leaves it. -/
  left : σ
  /-- What the check came to. -/
  outcome : Outcome

/-- What a monitor is doing. -/
inductive Doing (σ : Type) where
  /-- It waits until something falls due. -/
  | waiting
  /-- It is in the midst of a check. -/
  | checking (beginning : Beginning σ) (op : Operation)
  /-- It was shut down. -/
  | returned

/-- The check that is under way, if there is one. -/
def Doing.underWay? {σ : Type} : Doing σ → Option (Beginning σ)
  | .checking beginning _ => some beginning
  | .waiting | .returned => none

/-- A monitor, the daemon and what the monitor is doing. -/
structure Activity (σ : Type) where
  /-- The monitor, with the time. -/
  monitor : Monitor
  /-- The daemon. -/
  daemon : σ
  /-- What the monitor is doing. -/
  doing : Doing σ

namespace Activity

variable {σ : Type}

/-- The beginnings of all checks, given those that were carried out. -/
def beginnings (turns : List (Turn σ)) (activity : Activity σ) : List (Beginning σ) :=
  turns.map Turn.toBeginning ++ activity.doing.underWay?.toList

end Activity

/-- The times at which the checks of one kind began. -/
def startsOf {σ : Type} (check : Check) (beginnings : List (Beginning σ)) : List Nat :=
  (beginnings.filter (·.check = check)).map (·.began)

@[simp] theorem startsOf_concat {σ : Type} (beginnings : List (Beginning σ)) (check : Check)
    (began : Nat) (found : σ) :
    startsOf check (beginnings ++ [⟨check, began, found⟩]) =
      startsOf check beginnings ++ [began] := by
  simp [startsOf]

theorem startsOf_concat_of_ne {σ : Type} (beginnings : List (Beginning σ)) {check other : Check}
    (h : check ≠ other) (began : Nat) (found : σ) :
    startsOf other (beginnings ++ [⟨check, began, found⟩]) = startsOf other beginnings := by
  simp [startsOf, h]

/-- **Where a monitor runs.** -/
structure Setting (σ : Type) where
  /-- The guard. -/
  guard : Guard
  /-- The daemon, which fails as it likes. -/
  server : Operation.Server σ
  /-- The milliseconds that a request takes. -/
  latency : σ → Request → Nat
  /-- The time of the shutdown. -/
  stop : Nat

namespace Setting

variable {σ : Type}

/-- The daemon with the time. -/
def timed (w : Setting σ) : Operation.Server (σ × Nat) := fun (s, now) request =>
  (((w.server s request).1, now + w.latency s request), (w.server s request).2)

/-- A check as a whole: the daemon after it, and the milliseconds that it takes. -/
def carryOut (w : Setting σ) (check : Check) (s : σ) : σ × Nat :=
  (Operation.run w.guard w.timed (s, 0) check.operation).1

/-- Whether a check was carried out from its beginning to its end as it would be alone. -/
def IsWhole (w : Setting σ) (turn : Turn σ) : Prop :=
  Operation.run w.guard w.timed (turn.found, turn.began) turn.check.operation =
    ((turn.left, turn.ended), turn.outcome)

/-- **What a monitor can do next**, and the check that ends with it. -/
inductive Moves (w : Setting σ) : Activity σ → Option (Turn σ) → Activity σ → Prop
  /-- A check that is due begins. -/
  | begins {m : Monitor} {s : σ} {check : Check} (ready : m.isReady w.stop check = true) :
      Moves w ⟨m, s, .waiting⟩ none
        ⟨m.after check (m.wake w.stop) 0, s, .checking ⟨check, m.wake w.stop, s⟩ check.operation⟩
  /-- The check that is under way hears an answer. -/
  | goesOn {m : Monitor} {s s' : σ} {now : Nat} {beginning : Beginning σ} {op next : Operation}
      (served : w.timed.after (s, m.now) op = (s', now))
      (goesOn : op.resume w.guard (w.server.answers s) = .running next) :
      Moves w ⟨m, s, .checking beginning op⟩ none
        ⟨m.movedTo now, s', .checking beginning next⟩
  /-- The check that is under way hears its last answer. -/
  | ends {m : Monitor} {s s' : σ} {now : Nat} {beginning : Beginning σ} {op : Operation}
      {outcome : Outcome} (served : w.timed.after (s, m.now) op = (s', now))
      (finished : op.resume w.guard (w.server.answers s) = .finished outcome) :
      Moves w ⟨m, s, .checking beginning op⟩ (some ⟨beginning, now, s', outcome⟩)
        ⟨m.movedTo now, s', .waiting⟩
  /-- The shutdown is due, and the monitor returns. -/
  | stops {m : Monitor} {s : σ} (due : m.isStopping w.stop = true) :
      Moves w ⟨m, s, .waiting⟩ none ⟨m.movedTo (m.wake w.stop), s, .returned⟩

/-- **The runs of a monitor**, with the checks that were carried out. -/
inductive Runs (w : Setting σ) (first : Activity σ) : List (Turn σ) → Activity σ → Prop
  /-- Nothing has happened yet. -/
  | first : Runs w first [] first
  /-- The monitor does something. -/
  | move {turns : List (Turn σ)} {activity next : Activity σ} {turn? : Option (Turn σ)}
      (runs : Runs w first turns activity) (moves : w.Moves activity turn? next) :
      Runs w first (turns ++ turn?.toList) next

variable {w : Setting σ}

/-! ### Every run can go on until it returns -/

/-- A monitor that waits can be shut down or begin a check. -/
theorem exists_moves_of_waiting (w : Setting σ) (m : Monitor) (s : σ) :
    ∃ turn? next, w.Moves ⟨m, s, .waiting⟩ turn? next := by
  cases hstop : m.isStopping w.stop with
  | true => exact ⟨none, _, .stops hstop⟩
  | false => exact ⟨none, _, .begins (isReady_nextCheck hstop)⟩

/-- A check that is under way can go on. -/
theorem exists_moves_of_checking (w : Setting σ) (m : Monitor) (s : σ) (beginning : Beginning σ)
    (op : Operation) : ∃ turn? next, w.Moves ⟨m, s, .checking beginning op⟩ turn? next := by
  cases hprogress : op.resume w.guard (w.server.answers s) with
  | running next => exact ⟨none, _, .goesOn rfl hprogress⟩
  | finished outcome => exact ⟨_, _, .ends rfl hprogress⟩

theorem exists_moves (w : Setting σ) (activity : Activity σ) :
    (∃ turn? next, w.Moves activity turn? next) ∨ activity.doing = .returned := by
  obtain ⟨m, s, doing⟩ := activity
  cases doing with
  | waiting => exact .inl (exists_moves_of_waiting w m s)
  | checking beginning op => exact .inl (exists_moves_of_checking w m s beginning op)
  | returned => exact .inr rfl

/-! ### What every run keeps -/

/-- While a check is under way, time moves on. -/
theorem le_timed_after (w : Setting σ) (s : σ) (now : Nat) (op : Operation) :
    now ≤ (w.timed.after (s, now) op).2 := by
  unfold Operation.Server.after
  cases op.request? with
  | none => exact Nat.le_refl now
  | some request => exact Nat.le_add_right ..

/-- **What every run keeps of the tickers and of the beginnings of checks**: it is kept when a check
begins, when a request is answered, and when the monitor returns. -/
theorem Runs.keeps {P : Monitor → List (Beginning σ) → Prop} {m : Monitor} {s : σ}
    {turns : List (Turn σ)} {activity : Activity σ}
    (runs : w.Runs ⟨m, s, .waiting⟩ turns activity) (start : P m [])
    (begins : ∀ m beginnings check s, P m beginnings → m.isReady w.stop check = true →
      P (m.after check (m.wake w.stop) 0) (beginnings ++ [⟨check, m.wake w.stop, s⟩]))
    (passes : ∀ m beginnings s op, P m beginnings →
      P (m.movedTo (w.timed.after (s, m.now) op).2) beginnings)
    (stops : ∀ m beginnings, P m beginnings → m.isStopping w.stop = true →
      P (m.movedTo (m.wake w.stop)) beginnings) :
    P activity.monitor (activity.beginnings turns) := by
  induction runs with
  | first => exact start
  | @move turns _ _ _ runs moves ih =>
    cases moves with
    | @begins m s check ready =>
      have h := begins _ _ check s ih ready
      simp only [Activity.beginnings, Doing.underWay?, Option.toList_none, List.append_nil,
        Option.toList_some] at h ⊢
      exact h
    | @goesOn m s s' now beginning op next served goesOn =>
      have h := passes _ _ s op ih
      rw [served] at h
      simpa only [Activity.beginnings, Doing.underWay?, Option.toList_none, List.append_nil] using h
    | @ends m s s' now beginning op outcome served finished =>
      -- the check that was under way is now the last of the turns
      have h := passes _ _ s op ih
      rw [served] at h
      simpa only [Activity.beginnings, Doing.underWay?, Option.toList_none, Option.toList_some,
        List.map_append, List.map_cons, List.map_nil, List.append_nil] using h
    | stops due =>
      have h := stops _ _ ih due
      simpa only [Activity.beginnings, Doing.underWay?, Option.toList_none, List.append_nil] using h

/-! ### A check comes to its end -/

/-- **A check that is under way is carried out to its end**, whenever the shutdown is due. -/
theorem Runs.carried {first : Activity σ} {turns : List (Turn σ)} {m : Monitor} {s : σ}
    {beginning : Beginning σ} {op : Operation}
    (runs : w.Runs first turns ⟨m, s, .checking beginning op⟩) {s' : σ} {now : Nat}
    {outcome : Outcome}
    (done : Operation.run w.guard w.timed (s, m.now) op = ((s', now), outcome)) :
    w.Runs first (turns ++ [⟨beginning, now, s', outcome⟩]) ⟨m.movedTo now, s', .waiting⟩ := by
  cases hprogress : op.resume w.guard (w.server.answers s) with
  | running next =>
    rw [@Operation.run_of_running _ w.guard w.timed (s, m.now) op next hprogress] at done
    have hruns := runs.move (.goesOn rfl hprogress)
    rw [Option.toList_none, List.append_nil] at hruns
    exact hruns.carried done
  | finished outcome' =>
    rw [@Operation.run_of_finished _ w.guard w.timed (s, m.now) op outcome' hprogress] at done
    obtain ⟨hserved, rfl⟩ := Prod.mk.inj done
    exact runs.move (.ends hserved hprogress)
termination_by op.rank
decreasing_by exact Operation.rank_resume hprogress

/-- What a check that is under way has done so far and what it will do make up the whole. -/
def InKeeping (w : Setting σ) (activity : Activity σ) : Prop :=
  ∀ beginning op, activity.doing = .checking beginning op →
    Operation.run w.guard w.timed (beginning.found, beginning.began) beginning.check.operation =
      Operation.run w.guard w.timed (activity.daemon, activity.monitor.now) op

theorem inKeeping_waiting (w : Setting σ) (m : Monitor) (s : σ) :
    w.InKeeping ⟨m, s, .waiting⟩ :=
  fun _ _ h => nomatch h

/-- One step leaves the check under way in keeping with its beginning, and a check that ends with it
is whole. -/
theorem Moves.inKeeping {activity next : Activity σ} {turn? : Option (Turn σ)}
    (moves : w.Moves activity turn? next) (h : w.InKeeping activity) :
    w.InKeeping next ∧ ∀ turn ∈ turn?, w.IsWhole turn := by
  cases moves with
  | begins ready =>
    refine ⟨?_, fun _ h => nomatch h⟩
    rintro beginning op ⟨⟩
    rw [now_after]
    rfl
  | @goesOn m s s' now beginning op next served goesOn =>
    refine ⟨?_, fun _ h => nomatch h⟩
    rintro _ _ ⟨⟩
    have hrun := @Operation.run_of_running _ w.guard w.timed (s, m.now) op next goesOn
    rw [served] at hrun
    exact (h beginning op rfl).trans hrun
  | @ends m s s' now beginning op outcome served finished =>
    refine ⟨fun _ _ h => (nomatch h), ?_⟩
    rintro turn ⟨⟩
    have hrun := @Operation.run_of_finished _ w.guard w.timed (s, m.now) op outcome finished
    rw [served] at hrun
    exact (h beginning op rfl).trans hrun
  | stops due => exact ⟨fun _ _ h => (nomatch h), fun _ h => nomatch h⟩

/-- **Every check is whole**: those that were carried out, and the one that is under way so far. -/
theorem Runs.whole {first activity : Activity σ} {turns : List (Turn σ)}
    (runs : w.Runs first turns activity) (h : w.InKeeping first) :
    w.InKeeping activity ∧ ∀ turn ∈ turns, w.IsWhole turn := by
  induction runs with
  | first => exact ⟨h, fun _ h => absurd h List.not_mem_nil⟩
  | move runs moves ih =>
    obtain ⟨hkeeping, hwhole⟩ := moves.inKeeping ih.1
    refine ⟨hkeeping, fun turn hmem => ?_⟩
    rcases List.mem_append.mp hmem with hmem | hmem
    · exact ih.2 turn hmem
    · exact hwhole turn (Option.mem_toList.mp hmem)

/-! ### The fixed order -/

/-- The clock of a check can be set to any time. -/
theorem run_timed_add (s : σ) (start now : Nat) (op : Operation) {s' : σ} {ended : Nat}
    {outcome : Outcome}
    (done : Operation.run w.guard w.timed (s, now) op = ((s', ended), outcome)) :
    Operation.run w.guard w.timed (s, start + now) op = ((s', start + ended), outcome) := by
  have hafter : w.timed.after (s, start + now) op =
      ((w.timed.after (s, now) op).1, start + (w.timed.after (s, now) op).2) := by
    unfold Operation.Server.after
    cases op.request? with
    | none => rfl
    | some request => exact congrArg (Prod.mk _) (Nat.add_assoc ..)
  cases hprogress : op.resume w.guard (w.server.answers s) with
  | running next =>
    rw [@Operation.run_of_running _ w.guard w.timed (s, now) op next hprogress] at done
    rw [@Operation.run_of_running _ w.guard w.timed (s, start + now) op next hprogress, hafter]
    exact run_timed_add _ start _ next done
  | finished outcome' =>
    rw [@Operation.run_of_finished _ w.guard w.timed (s, now) op outcome' hprogress] at done
    rw [@Operation.run_of_finished _ w.guard w.timed (s, start + now) op outcome' hprogress, hafter]
    obtain ⟨hserved, rfl⟩ := Prod.mk.inj done
    rw [hserved]
termination_by op.rank
decreasing_by exact Operation.rank_resume hprogress

/-- **The run that `Monitor.run` carries out** is a run. -/
theorem exists_runs_run {first : Activity σ} {turns : List (Turn σ)} {m : Monitor} {s : σ}
    (runs : w.Runs first turns ⟨m, s, .waiting⟩) :
    ∃ turns' m', w.Runs first turns' ⟨m', (m.run w.stop w.carryOut s).2, .returned⟩ ∧
      m'.now = (m.run w.stop w.carryOut s).1 := by
  induction m, s using Monitor.run.induct w.stop w.carryOut generalizing turns with
  | case1 m s hstop =>
    rw [Monitor.run, dif_pos hstop]
    exact ⟨_, _, runs.move (.stops hstop), rfl⟩
  | case2 m s hgoes check done =>
    rename_i ih
    have hready : m.isReady w.stop (m.nextCheck w.stop) = true :=
      isReady_nextCheck (Bool.eq_false_iff.mpr hgoes)
    have hbegins := runs.move (.begins hready)
    rw [Option.toList_none, List.append_nil] at hbegins
    have hdone : Operation.run w.guard w.timed
        (s, (m.after (m.nextCheck w.stop) (m.wake w.stop) 0).now) (m.nextCheck w.stop).operation =
        (((w.carryOut (m.nextCheck w.stop) s).1,
          m.wake w.stop + (w.carryOut (m.nextCheck w.stop) s).2),
          (Operation.run w.guard w.timed (s, 0) (m.nextCheck w.stop).operation).2) := by
      rw [now_after]
      exact run_timed_add s _ 0 _ rfl
    have hends := hbegins.carried hdone
    rw [Monitor.run, dif_neg hgoes]
    rw [movedTo_after] at hends
    exact ih hends

end Setting

end Monitor

/-! ### The metered daemon -/

namespace MeteredDaemon

/-- A metered daemon as the daemon that a monitor watches. -/
def setting (guard : Guard) (stop : Nat) : Monitor.Setting MeteredDaemon where
  guard := guard
  server := serve
  latency metered request := (metered.latency.find? request.kind).getD 0
  stop := stop

/-- The clock of a check goes on as the meter does. -/
theorem run_timed_eq (guard : Guard) (stop : Nat) (metered : MeteredDaemon) (now : Nat)
    (op : Operation) : ∃ ended,
      Operation.run guard (setting guard stop).timed (metered, now) op =
        (((Operation.run guard serve metered op).1, ended),
          (Operation.run guard serve metered op).2) ∧
      metered.elapsed + ended = now + (Operation.run guard serve metered op).1.elapsed := by
  have hafter : ∃ now', (setting guard stop).timed.after (metered, now) op =
      (Operation.Server.after serve metered op, now') ∧
      metered.elapsed + now' = now + (Operation.Server.after serve metered op).elapsed := by
    unfold Operation.Server.after
    cases op.request? with
    | none => exact ⟨now, rfl, Nat.add_comm ..⟩
    | some request => exact ⟨_, rfl, Nat.add_left_comm ..⟩
  obtain ⟨now', hafter, hmeter⟩ := hafter
  cases hprogress : op.resume guard (Operation.Server.answers serve metered) with
  | running next =>
    have hrun := @Operation.run_of_running _ guard (setting guard stop).timed (metered, now) op next
      hprogress
    rw [hafter] at hrun
    rw [hrun, Operation.run_of_running hprogress]
    obtain ⟨ended, hrest, hmeter'⟩ :=
      run_timed_eq guard stop (Operation.Server.after serve metered op) now' next
    exact ⟨ended, hrest, by omega⟩
  | finished outcome =>
    have hrun := @Operation.run_of_finished _ guard (setting guard stop).timed (metered, now) op
      outcome hprogress
    rw [hafter] at hrun
    rw [hrun, Operation.run_of_finished hprogress]
    exact ⟨now', rfl, hmeter⟩
termination_by op.rank
decreasing_by exact Operation.rank_resume hprogress

/-- **A check of a metered daemon** takes the time that the meter shows. -/
theorem perform_eq (guard : Guard) (stop : Nat) (check : Check) (metered : MeteredDaemon) :
    perform guard check metered = (setting guard stop).carryOut check metered := by
  obtain ⟨ended, hrun, hmeter⟩ := run_timed_eq guard stop metered 0 check.operation
  have hended : (Operation.run guard serve metered check.operation).1.elapsed - metered.elapsed =
      ended := by omega
  have hdone : (setting guard stop).carryOut check metered =
      ((Operation.run guard serve metered check.operation).1, ended) := congrArg Prod.fst hrun
  rw [hdone, ← hended]
  rfl

/-- **A monitor that watches a metered daemon** until its shutdown carries out one of the runs. -/
theorem exists_runs_runMonitor (guard : Guard) (stop : Nat) (m : Monitor)
    (metered : MeteredDaemon) : ∃ turns m', (setting guard stop).Runs ⟨m, metered, .waiting⟩ turns
      ⟨m', (runMonitor guard stop m metered).2, .returned⟩ ∧
      m'.now = (runMonitor guard stop m metered).1 := by
  have hperform : perform guard = (setting guard stop).carryOut := by
    funext check metered
    exact perform_eq guard stop check metered
  rw [runMonitor, hperform]
  exact Monitor.Setting.exists_runs_run (w := setting guard stop) .first

end MeteredDaemon

end Dockmaster
