import Dockmaster.Rehearsal.Run

/-!
# Cues

What happens in a rehearsal from outside, one after another: a task begins or is cancelled, a gate
is held or lets a request through, the daemon is changed. After each cue the rehearsal settles.
-/

namespace Dockmaster

/-- What happens from outside. -/
inductive Cue where
  /-- A task begins. Without a name it is cancelled when it is not over by the time everything has
  settled. -/
  | begin (name : Option String) (job : Job)
  /-- The latest task with a name is cancelled. -/
  | cancel (name : String)
  /-- Requests that fit a key are held back from now on. -/
  | hold (key : String)
  /-- Requests that fit a key are not held back any more; those that are stay where they are. -/
  | unhold (key : String)
  /-- The request that was held back longest under a key is let through. -/
  | release (key : String)
  /-- A failure is planned. -/
  | fail (failure : PlannedFailure)
  /-- No failures are planned any more. -/
  | clearFailures
  /-- The daemon has another container. -/
  | addContainer (key : String) (resident : Resident)
  /-- The daemon loses a container. -/
  | dropContainer (key : String)
  /-- A container is started or stopped. -/
  | setRunning (key : String) (running : Bool)
  /-- The entry of a container in the list differs in another way. -/
  | setListed (key : String) (listed : ListingOverride)
  /-- An image reference has other local images. -/
  | setLocal (image : String) (ids : List String)
  /-- An image reference has other images in the registry. -/
  | setRegistry (image : String) (ids : List String)
  /-- A container has another log. -/
  | setLogs (id : String) (feed : Feed)
  /-- One more id waits for a container. -/
  | queueId (id : String)

/-- What comes of a cue at once. -/
inductive Response where
  /-- A task with a name has begun. -/
  | spawned
  /-- A task without a name is over. -/
  | result (result : Result)
  /-- A task without a name was cancelled. -/
  | pending
  /-- The rehearsal was changed. -/
  | done
  /-- A request was let through, or there was none. -/
  | released (found : Bool)

namespace Rehearsal

/-- The rehearsal with a new task, which can go on after all others that can. -/
def spawn (s : Rehearsal) (name : Option String) (job : Job) : Rehearsal :=
  { s with
    tasks := s.tasks ++ [⟨s.nextNumber, name, .fresh job⟩]
    names := name.elim s.names (s.names.put · s.nextNumber)
    ready := s.ready ++ [s.nextNumber]
    nextNumber := s.nextNumber + 1 }

/-- The result of a task that is over. -/
def result? (s : Rehearsal) (number : Nat) : Option Result :=
  (s.finished.find? (·.1.number = number)).map (·.2)

/-- The latest task that was begun under a name, if it is not over. -/
def named? (s : Rehearsal) (name : String) : Option Task :=
  (s.names.find? name).bind s.task?

/-- The rehearsal after the request that was held back longest under a key is let through, and
whether there was one. -/
def release (s : Rehearsal) (key : String) : Rehearsal × Bool :=
  match s.gated.find? (·.1 = key) with
  | none => (s, false)
  | some (_, number) =>
    match s.task? number with
    | some ⟨_, _, .gated request⟩ =>
      let gated := s.gated.filter (·.2 ≠ number)
      ({ s.setStage number (.admitted request) with gated }.wake number, true)
    | _ => (s, false)

/-- The rehearsal with another daemon. -/
def withDaemon (s : Rehearsal) (f : ScriptedDaemon → ScriptedDaemon) : Rehearsal :=
  { s with daemon := f s.daemon }

/-- The rehearsal with a container of the daemon changed, if there is one under the key. -/
def adjust (s : Rehearsal) (key : String) (f : Resident → Resident) : Rehearsal :=
  s.withDaemon fun daemon =>
    match daemon.residents.find? key with
    | some resident => daemon.put key (f resident)
    | none => daemon

/-- The rehearsal after a cue that only changes the daemon or the gates. -/
def change (s : Rehearsal) : Cue → Rehearsal
  | .hold key => if key ∈ s.gates then s else { s with gates := s.gates ++ [key] }
  | .unhold key => { s with gates := s.gates.filter (· ≠ key) }
  | .fail failure => s.withDaemon fun d => { d with failures := d.failures ++ [failure] }
  | .clearFailures => s.withDaemon fun d => { d with failures := [] }
  | .addContainer key resident => s.withDaemon (·.put key resident)
  | .dropContainer key => s.withDaemon fun d => { d with residents := d.residents.remove key }
  | .setRunning key running => s.adjust key fun resident => { resident with running }
  | .setListed key listed => s.adjust key fun resident => { resident with listed }
  | .setLocal image ids =>
    s.withDaemon fun d => { d with localImages := d.localImages.put image ids }
  | .setRegistry image ids =>
    s.withDaemon fun d => { d with registryImages := d.registryImages.put image ids }
  | .setLogs id feed => { s with logs := s.logs.put id feed }
  | .queueId id => s.withDaemon fun d => { d with nextIds := d.nextIds ++ [id] }
  | .begin _ _ | .cancel _ | .release _ => s

/-- The rehearsal with nothing noted since the latest cue. -/
def cleared (s : Rehearsal) : Rehearsal := { s with calls := [], finished := [] }

/-- The rehearsal after a cue, before it settles, and what comes of the cue if that is known. -/
def give (s : Rehearsal) : Cue → Rehearsal × Response
  | .begin name job => (s.spawn name job, .spawned)
  | .cancel name => ((s.named? name).elim s s.cancelTask, .done)
  | .release key =>
    let (s, found) := s.release key
    (s, .released found)
  | cue => (s.change cue, .done)

/-- The rehearsal after a task has run without a name, and its result. A task that is not over when
everything has settled is cancelled. -/
def runNameless (s : Rehearsal) (job : Job) : Rehearsal × Response :=
  let number := s.nextNumber
  let s := (s.spawn none job).settle
  match s.result? number with
  | some result => (s, .result result)
  | none => (((s.task? number).elim s s.cancelTask).settle, .pending)

/-- The rehearsal after a cue, once everything has settled, and what came of the cue. -/
def perform (s : Rehearsal) (cue : Cue) : Rehearsal × Response :=
  match cue with
  | .begin none job => s.cleared.runNameless job
  | cue =>
    let (s, response) := s.cleared.give cue
    (s.settle, response)

end Rehearsal

end Dockmaster
