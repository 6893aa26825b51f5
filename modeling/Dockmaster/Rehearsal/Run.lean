import Dockmaster.Rehearsal.Basic

/-!
# Letting a rehearsal run

`settle` lets all tasks run until nothing can go on any more, or until a day of the time of the
rehearsal is over. While a task can go on, no time passes; when none can, the time goes to the
moment at which the next sleepers wake, and all that wake at that moment are ready in the order in
which they fell asleep.
-/

namespace Dockmaster

namespace Rehearsal

/-- A day in milliseconds. -/
def day : Nat := 86400000

/-- The moment at which the next sleepers wake. -/
def nextWake? (sleepers : List Sleeper) : Option Nat :=
  (sleepers.map (·.due)).min?

/-- The rehearsal at a later moment, with all sleepers awake that are due then. -/
def advance (s : Rehearsal) (moment : Nat) : Rehearsal :=
  { s with
    now := moment
    ready := s.ready ++ (s.sleepers.filter (·.due ≤ moment)).map (·.number)
    sleepers := s.sleepers.filter (moment < ·.due) }

/-- The rehearsal after one task has run, or after time has passed until one can run; nothing if
none can run before a moment. -/
def step? (limit : Nat) (s : Rehearsal) : Option Rehearsal :=
  match s.ready with
  | number :: rest =>
    let s := { s with ready := rest }
    some ((s.task? number).elim s s.runTask)
  | [] =>
    match nextWake? s.sleepers with
    | some moment => if moment < limit then some (s.advance moment) else none
    | none => none

/-- The rehearsal after some steps, or fewer if there are not so many before a moment. At the end
the time is that moment. -/
def runUntil (limit : Nat) : Nat → Rehearsal → Rehearsal
  | 0, s => s.advance limit
  | n + 1, s =>
    match s.step? limit with
    | some s => runUntil limit n s
    | none => s.advance limit

/-- How many networks a container is connected to. -/
def networkCount (info : InspectRecord) : Nat := (info.networks.getD []).length

/-- The requests that an operation may still make, as far as it can tell by itself. -/
def workLeft (op : Operation) : Nat :=
  op.rank.1 + op.rank.2 + (op.target?.elim 0 (·.snapshot.networks.length))

/-- The sum of a number for each item of a list. -/
def total {α : Type} (f : α → Nat) (items : List α) : Nat :=
  items.foldl (fun sum item => sum + f item) 0

/-- A number of requests that no task exceeds before the rehearsal settles: an operation makes a
fixed number of requests, one for each network of a container, and three for each container in a
list. -/
def requestBound (s : Rehearsal) : Nat :=
  let networks := total (fun entry => networkCount entry.2.info) s.daemon.residents
  let containers := s.daemon.residents.length + s.tasks.length
  16 + networks + 3 * containers + total (fun entry => workLeft entry.2) s.engine.live

/-- A number of steps after which a rehearsal has settled. A request takes at most four of them: it
is issued, let through, slept over and served. -/
def stepBound (s : Rehearsal) : Nat := 4 * (s.tasks.length + 1) * s.requestBound

/-- The rehearsal after everything that can go on within a day has gone on, and the day is over. -/
def settle (s : Rehearsal) : Rehearsal := runUntil (s.now + day) s.stepBound s

end Rehearsal

end Dockmaster
