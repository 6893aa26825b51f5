import Dockmaster.Daemon.Scripted
import Dockmaster.Engine
import Dockmaster.Job

/-!
# Rehearsals

A rehearsal is the service at work against a daemon in memory, in a time of its own that passes only
when there is nothing left to do. Operations and log reads run as tasks. Only one task runs at a
time, and it runs until it has to wait; tasks that can go on again do so in the order in which they
were woken.

A request to the daemon may be held back at a gate until it is let through, and it may take time.
Only after that it is served.
-/

namespace Dockmaster

/-- A call to the daemon, as it is recorded. -/
inductive Call where
  /-- A request. -/
  | request (request : Request)
  /-- A log feed is opened. -/
  | logs (id : String) (query : LogQuery)

/-- Where a task stands. -/
inductive Stage where
  /-- It has not begun. -/
  | fresh (job : Job)
  /-- Its request is held back at a gate. -/
  | gated (request : Request)
  /-- Its request was let through a gate. -/
  | admitted (request : Request)
  /-- Its request is served as soon as the task runs. -/
  | calling (request : Request)
  /-- It waits for a lock. -/
  | locked
  /-- It reads a log and will come to a result. -/
  | reading (reading : Reading)
  /-- It reads a log that has fallen silent. -/
  | listening

/-- A task that is not over. -/
structure Task where
  /-- The number, by which the engine knows the operation of the task. -/
  number : Nat
  /-- The name, if it has one. -/
  name : Option String
  /-- Where it stands. -/
  stage : Stage

/-- A task that sleeps until some time. -/
structure Sleeper where
  /-- The time in milliseconds. -/
  due : Nat
  /-- The number of the task. -/
  number : Nat
  deriving DecidableEq

/-- A rehearsal. -/
structure Rehearsal where
  /-- The operations under way. -/
  engine : Engine
  /-- The daemon. -/
  daemon : ScriptedDaemon
  /-- The milliseconds that a request takes, by its kind. -/
  latency : Directory Nat
  /-- The feeds of the logs by container id. -/
  logs : Directory Feed
  /-- The settings for reading logs. -/
  settings : LogSettings
  /-- The time in milliseconds. -/
  now : Nat := 0
  /-- The keys of the gates that are held, the oldest first. -/
  gates : List String := []
  /-- The requests that are held back, the longest first: the key of the gate and the task. -/
  gated : List (String × Nat) := []
  /-- The tasks that are not over, the oldest first. -/
  tasks : List Task := []
  /-- The latest task that was begun under a name. -/
  names : Directory Nat := []
  /-- The numbers of the tasks that can go on, in order. -/
  ready : List Nat := []
  /-- The tasks that sleep, in the order in which they fell asleep. -/
  sleepers : List Sleeper := []
  /-- The calls since the latest cue, the latest first. -/
  calls : List Call := []
  /-- The tasks that are over since the latest cue and what they came to, the latest first. -/
  finished : List (Task × Result) := []
  /-- The number of the next task. -/
  nextNumber : Nat := 0
  /-- How many log feeds were opened. -/
  opened : Nat := 0
  /-- How many log feeds were dropped. -/
  dropped : Nat := 0

namespace Rehearsal

/-- The key under which the feed of every other log is found. -/
def anyLog : String := "*"

/-- The feed of the log of a container. -/
def feedOf (s : Rehearsal) (id : String) : Feed :=
  (s.logs.find? id).getD ((s.logs.find? anyLog).getD [])

/-- The task with a number. -/
def task? (s : Rehearsal) (number : Nat) : Option Task :=
  s.tasks.find? (·.number = number)

/-- The rehearsal with a task at another stage. -/
def setStage (s : Rehearsal) (number : Nat) (stage : Stage) : Rehearsal :=
  { s with
    tasks := s.tasks.map fun task => if task.number = number then { task with stage } else task }

/-- The rehearsal with a call recorded. -/
def record (s : Rehearsal) (call : Call) : Rehearsal := { s with calls := call :: s.calls }

/-- The rehearsal with a task that can go on after all others that can. -/
def wake (s : Rehearsal) (number : Nat) : Rehearsal := { s with ready := s.ready ++ [number] }

/-- The rehearsal with a task that goes on at once. -/
def goOnWith (s : Rehearsal) (number : Nat) (stage : Stage) : Rehearsal :=
  { s.setStage number stage with ready := number :: s.ready }

/-- The rehearsal with a task that sleeps for some milliseconds. -/
def sleep (s : Rehearsal) (number : Nat) (stage : Stage) (duration : Nat) : Rehearsal :=
  { s.setStage number stage with sleepers := s.sleepers ++ [⟨s.now + duration, number⟩] }

/-- The rehearsal without a task. -/
def forget (s : Rehearsal) (number : Nat) : Rehearsal :=
  { s with
    tasks := s.tasks.filter (·.number ≠ number)
    ready := s.ready.filter (· ≠ number)
    gated := s.gated.filter (·.2 ≠ number)
    sleepers := s.sleepers.filter (·.number ≠ number) }

/-- The rehearsal after a task came to a result. -/
def finish (s : Rehearsal) (number : Nat) (result : Result) : Rehearsal :=
  match s.task? number with
  | some task => { s.forget number with finished := (task, result) :: s.finished }
  | none => s

/-! ### Requests -/

/-- The rehearsal after a request was let through. -/
def letThrough (s : Rehearsal) (number : Nat) (request : Request) : Rehearsal :=
  match (s.latency.find? request.kind).getD 0 with
  | 0 => s.goOnWith number (.calling request)
  | duration => s.sleep number (.calling request) duration

/-- The rehearsal after a task makes a request. The first of the gates that are held and have a
fitting key holds it back. -/
def issue (s : Rehearsal) (number : Nat) (request : Request) : Rehearsal :=
  let s := s.record (.request request)
  match s.gates.find? request.matchesKey with
  | some key =>
    { s.setStage number (.gated request) with gated := s.gated ++ [(key, number)] }
  | none => s.letThrough number request

/-- The rehearsal after a notice of the engine. -/
def heed (s : Rehearsal) : Notice → Rehearsal
  | .issued number request => s.issue number request
  | .queued number _ => s.setStage number .locked
  | .returned number outcome => s.finish number (.outcome outcome)
  | .handed number => s.wake number

/-- The rehearsal after an event of the engine. -/
def drive (s : Rehearsal) (event : Engine.Event) : Rehearsal :=
  let (engine, notices) := s.engine.step event
  notices.foldl heed { s with engine }

/-- The rehearsal after the daemon serves the request of a task. -/
def serve (s : Rehearsal) (number : Nat) (request : Request) : Rehearsal :=
  let answers : Answers := fun request => (s.daemon.serve request).2
  { s with daemon := (s.daemon.serve request).1 }.drive (.answer number answers)

/-! ### Log reads -/

/-- The rehearsal after the feed of a container's log is opened, and the feed. -/
def openFeed (id : String) (s : Rehearsal) (query : LogQuery) : Rehearsal × Feed :=
  ({ s.record (.logs id query) with opened := s.opened + 1 }, s.feedOf id)

/-- The rehearsal after a task has read a log. -/
def closeFeed (s : Rehearsal) (number : Nat) (reading : Reading) : Rehearsal :=
  { s with dropped := s.dropped + reading.drops }.finish number reading.result

/-- The rehearsal with a task that reads a log, which may take time or never end. -/
def readLog (s : Rehearsal) (number : Nat) : Option Reading → Rehearsal
  | some reading =>
    if reading.elapsed = 0 then s.closeFeed number reading
    else s.sleep number (.reading reading) reading.elapsed
  | none => s.setStage number .listening

/-- The rehearsal after a task begins to read the last lines of a log. -/
def getLogs (s : Rehearsal) (number : Nat) (id : String) (tail : Nat) : Rehearsal :=
  let (s, read) := LogRead.lastLines (openFeed id) s.settings.deadline tail s
  s.readLog number (read.bind Reading.ofLastLines)

/-- The rehearsal after a task begins to read a live stream. -/
def streamAll (s : Rehearsal) (number : Nat) (id : String) (follow : Bool) : Rehearsal :=
  let (s, feed) := s.openFeed id (.live follow)
  s.readLog number (Reading.ofOpened s.settings feed)

/-! ### Tasks -/

/-- The rehearsal after a task runs until it has to wait or makes a request. -/
def runTask (s : Rehearsal) (task : Task) : Rehearsal :=
  match task.stage with
  | .fresh (.operation op) => s.drive (.begin task.number op)
  | .fresh (.getLogs id tail) => s.getLogs task.number id tail
  | .fresh (.streamAll id follow) => s.streamAll task.number id follow
  | .admitted request => s.letThrough task.number request
  | .calling request => s.serve task.number request
  | .locked => s.drive (.look task.number)
  | .reading reading => s.closeFeed task.number reading
  | .gated _ => s
  | .listening => s

/-- The rehearsal after a task is cancelled. -/
def cancelTask (s : Rehearsal) (task : Task) : Rehearsal :=
  match task.stage with
  | .reading _ | .listening => { s with dropped := s.dropped + 1 }.forget task.number
  | _ => (s.drive (.cancel task.number)).forget task.number

end Rehearsal

end Dockmaster
