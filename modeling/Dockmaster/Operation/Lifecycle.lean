import Dockmaster.Container.Snapshot
import Dockmaster.Daemon.Request
import Dockmaster.Error
import Dockmaster.Guard
import Dockmaster.Operation.Progress

/-!
# Stopping, restarting and updating a container

The three operations that a protected container is kept from. Each begins in the same way: it looks
the container up to learn its full id, waits for the lock of that id, and looks the container up
once more under the lock. Only the second look decides whether the container is protected, and all
that an update carries over comes from it.

An update pulls the image, stops and removes the container, creates its replacement under the same
name, connects it to its networks and starts it. It goes on after a failure in two places only: when
the container turns out to be stopped already, and when a network cannot be connected.

An operation is described by the phase that it is in. A phase either asks the daemon for something
or waits for a lock; `resume` says what comes after.
-/

namespace Dockmaster

namespace Lifecycle

/-- The operations. -/
inductive Action where
  /-- Stop the container. -/
  | stop
  /-- Restart the container. -/
  | restart
  /-- Replace the container by one that runs the latest image. -/
  | update
  deriving DecidableEq, Repr

/-- The seconds that a container has to stop by itself. -/
def stopGrace : Nat := 10

/-- The seconds that a container has to stop by itself before it is replaced. -/
def updateStopGrace : Nat := 30

/-- What an update knows of the container that it replaces. -/
structure Target where
  /-- The full id. -/
  fullId : String
  /-- The name, without a leading slash. -/
  name : String
  /-- The image reference. -/
  image : String
  /-- What the replacement takes over. -/
  snapshot : Snapshot

/-- The phases of an operation. -/
inductive Phase where
  /-- The container is looked up by the reference of the caller. -/
  | resolving
  /-- The lock of the container is waited for. -/
  | queueing (fullId : String)
  /-- The container is looked up under its lock. -/
  | rechecking (fullId : String)
  /-- The container is stopped. -/
  | stopping (fullId : String)
  /-- The container is restarted. -/
  | restarting (fullId : String)
  /-- The image is pulled. -/
  | pulling (target : Target)
  /-- The container is stopped to be replaced. -/
  | halting (target : Target)
  /-- The container is removed. -/
  | removing (target : Target)
  /-- The replacement is created. -/
  | creating (target : Target)
  /-- The replacement is connected to a network, and others are left. -/
  | connecting (target : Target) (newId : String) (network : Attachment) (rest : List Attachment)
  /-- The replacement is started. -/
  | starting (target : Target) (newId : String)

/-- The result of an operation: an update has the id of the replacement. -/
abbrev Result := Except ServiceError (Option String)

namespace Phase

/-- What a phase asks of the daemon; waiting for a lock asks nothing. -/
def request? (reference : String) : Phase → Option Request
  | .resolving => some (.inspect reference)
  | .queueing _ => none
  | .rechecking fullId => some (.inspect fullId)
  | .stopping fullId => some (.stop fullId stopGrace)
  | .restarting fullId => some (.restart fullId stopGrace)
  | .pulling target => some (.pull target.image)
  | .halting target => some (.stop target.fullId updateStopGrace)
  | .removing target => some (.remove target.fullId true)
  | .creating target => some (.create target.name (target.snapshot.createConfig target.image))
  | .connecting _ newId network _ => some (.connect network.network newId network.aliases)
  | .starting _ newId => some (.start newId)

/-- The full id of the container, once it is known. -/
def fullId? : Phase → Option String
  | .resolving => none
  | .queueing fullId | .rechecking fullId | .stopping fullId | .restarting fullId => some fullId
  | .pulling target | .halting target | .removing target | .creating target => some target.fullId
  | .connecting target _ _ _ | .starting target _ => some target.fullId

/-- What an update knows of the container that it replaces, once it knows it. -/
def target? : Phase → Option Target
  | .pulling target | .halting target | .removing target | .creating target
  | .connecting target _ _ _ | .starting target _ => some target
  | _ => none

/-- The id of which the lock is waited for. -/
def awaitedLock? : Phase → Option String
  | .queueing fullId => some fullId
  | _ => none

/-- The id of which the lock is held. -/
def heldLock? : Phase → Option String
  | .queueing _ => none
  | phase => phase.fullId?

end Phase

/-- Whether a guard protects a container under the reference of the caller or under its full id. -/
def vetoed (guard : Guard) (reference fullId : String) (info : InspectRecord) : Bool :=
  guard.protects (info.identity reference) || guard.protects (info.identity fullId)

/-- What an update knows of a container after looking it up under its lock. -/
def Target.ofRecord (fullId : String) (info : InspectRecord) : Target :=
  let identity := info.identity fullId
  ⟨fullId, identity.name, identity.image, .capture info⟩

/-- The first phase after the container was found unprotected. -/
def firstPhase (action : Action) (fullId : String) (info : InspectRecord) : Phase :=
  match action with
  | .stop => .stopping fullId
  | .restart => .restarting fullId
  | .update => .pulling (.ofRecord fullId info)

/-- The phase in which the networks that are left are connected, or the replacement is started. -/
def reconnecting (target : Target) (newId : String) : List Attachment → Phase
  | [] => .starting target newId
  | network :: rest => .connecting target newId network rest

/-- The end of an update with a failed step. -/
def stageFailed (target : Target) (stage : UpdateStage) (e : ServiceError) :
    Progress Phase Result :=
  .finished (.error (.updateFailed target.name stage e))

/-- The end of an operation that one last answer decides. -/
def concluded (answer : Except DaemonFault Unit) : Progress Phase Result :=
  match answer with
  | .ok _ => .finished (.ok none)
  | .error fault => .finished (.error (.ofFault fault))

/-- What comes after a phase, given the answers of the daemon. A phase that waits for a lock goes on
once the lock is held. -/
def resume (guard : Guard) (action : Action) (reference : String) (answers : Answers) :
    Phase → Progress Phase Result
  | .resolving =>
    match answers (.inspect reference) with
    | .ok info => .running (.queueing (info.id.getD reference))
    | .error fault => .finished (.error (.ofFault fault))
  | .queueing fullId => .running (.rechecking fullId)
  | .rechecking fullId =>
    match answers (.inspect fullId) with
    | .ok info =>
      if vetoed guard reference fullId info then .finished (.error (.blacklisted reference))
      else .running (firstPhase action fullId info)
    | .error fault => .finished (.error (.ofFault fault))
  | .stopping fullId => concluded (answers (.stop fullId stopGrace))
  | .restarting fullId => concluded (answers (.restart fullId stopGrace))
  | .pulling target =>
    match answers (.pull target.image) with
    | .ok _ => .running (.halting target)
    | .error fault => stageFailed target .pull (.ofFault fault)
  | .halting target =>
    match answers (.stop target.fullId updateStopGrace) with
    | .ok _ => .running (.removing target)
    | .error fault =>
      match ServiceError.ofFault fault with
      | .alreadyInDesiredState _ => .running (.removing target)
      | e => stageFailed target .stop e
  | .removing target =>
    match answers (.remove target.fullId true) with
    | .ok _ => .running (.creating target)
    | .error fault => stageFailed target .remove (.ofFault fault)
  | .creating target =>
    match answers (.create target.name (target.snapshot.createConfig target.image)) with
    | .ok newId => .running (reconnecting target newId target.snapshot.reconnect)
    | .error fault => stageFailed target .create (.ofFault fault)
  | .connecting target newId _ rest => .running (reconnecting target newId rest)
  | .starting target newId =>
    match answers (.start newId) with
    | .ok _ => .finished (.ok (some newId))
    | .error fault => stageFailed target .start (.ofFault fault)

/-- How far a phase is from the end: the phases left, and the networks left. -/
def Phase.rank : Phase → Rank
  | .resolving => (8, 0)
  | .queueing _ => (7, 0)
  | .rechecking _ => (6, 0)
  | .stopping _ | .restarting _ => (0, 0)
  | .pulling _ => (5, 0)
  | .halting _ => (4, 0)
  | .removing _ => (3, 0)
  | .creating _ => (2, 0)
  | .connecting _ _ _ rest => (1, rest.length)
  | .starting _ _ => (0, 0)

theorem reconnecting_rank {target : Target} {newId : String} (networks : List Attachment) :
    (reconnecting target newId networks).rank.Below (2, 0) ∧
      ∀ network, (reconnecting target newId networks).rank.Below
        (Phase.connecting target newId network networks).rank := by
  cases networks with
  | nil => exact ⟨.left _ _ (by decide), fun _ => .left _ _ (by decide)⟩
  | cons first rest =>
    exact ⟨.left _ _ (by decide), fun _ => .right _ (by simp)⟩

/-- Every step brings an operation nearer to its end. -/
theorem rank_resume {guard : Guard} {action : Action} {reference : String} {answers : Answers}
    {phase next : Phase} (h : resume guard action reference answers phase = .running next) :
    next.rank.Below phase.rank := by
  cases phase with
  | resolving =>
    simp only [resume] at h
    split at h
    · cases h; exact .left _ _ (by decide)
    · cases h
  | queueing fullId => cases h; exact .left _ _ (by decide)
  | rechecking fullId =>
    simp only [resume] at h
    split at h
    · split at h
      · cases h
      · cases h; cases action <;> exact .left _ _ (by decide)
    · cases h
  | stopping fullId => simp only [resume, concluded] at h; split at h <;> cases h
  | restarting fullId => simp only [resume, concluded] at h; split at h <;> cases h
  | pulling target =>
    simp only [resume, stageFailed] at h
    split at h
    · cases h; exact .left _ _ (by decide)
    · cases h
  | halting target =>
    simp only [resume, stageFailed] at h
    split at h
    · cases h; exact .left _ _ (by decide)
    · split at h
      · cases h; exact .left _ _ (by decide)
      · cases h
  | removing target =>
    simp only [resume, stageFailed] at h
    split at h
    · cases h; exact .left _ _ (by decide)
    · cases h
  | creating target =>
    simp only [resume, stageFailed] at h
    split at h
    · cases h; exact (reconnecting_rank _).1
    · cases h
  | connecting target newId network rest =>
    cases h; exact (reconnecting_rank rest).2 network
  | starting target newId =>
    simp only [resume, stageFailed] at h
    split at h <;> cases h

end Lifecycle

end Dockmaster
