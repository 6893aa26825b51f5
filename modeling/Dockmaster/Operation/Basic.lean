import Dockmaster.Operation.ImageCheck
import Dockmaster.Operation.Lifecycle

/-!
# Operations

Everything that a caller can have done to containers and images, in whatever phase it is. A phase
either makes one request to the daemon or waits for the lock of one container, and `resume` leads to
the next phase or to the outcome. `run` carries an operation out alone, against any daemon.
-/

namespace Dockmaster

/-- What an operation gives back when it succeeds. -/
inductive Value where
  /-- Nothing but the success. -/
  | nothing
  /-- The id of a container. -/
  | id (id : String)
  /-- Yes or no. -/
  | flag (b : Bool)
  /-- The names of containers. -/
  | names (names : List String)
  /-- Containers. -/
  | summaries (containers : List Summary)
  deriving DecidableEq, Repr

/-- The outcome of an operation. -/
abbrev Outcome := Except ServiceError Value

/-- An operation in one of its phases. -/
inductive Operation where
  /-- List the running containers, or all of them. -/
  | list (all : Bool)
  /-- List the containers that count as running but are not in the state `running`. -/
  | health
  /-- Start a container, protected or not. -/
  | start (reference : String)
  /-- Stop, restart or update a container. -/
  | manage (action : Lifecycle.Action) (reference : String) (phase : Lifecycle.Phase)
  /-- Ask whether there is a newer image of a reference. -/
  | check (image : String) (phase : ImageCheck.Phase)
  /-- List the running containers of which there is a newer image. -/
  | sweep (phase : Sweep.Phase)

namespace Operation

/-! ### Where operations begin -/

/-- Stop a container. -/
def stop (reference : String) : Operation := .manage .stop reference .resolving

/-- Restart a container. -/
def restart (reference : String) : Operation := .manage .restart reference .resolving

/-- Replace a container by one that runs the latest image. -/
def update (reference : String) : Operation := .manage .update reference .resolving

/-- Ask whether there is a newer image of a reference. -/
def checkForUpdate (image : String) : Operation := .check image .before

/-- List the running containers of which there is a newer image. -/
def checkForUpdates : Operation := .sweep .listing

/-! ### How they go on -/

/-- What an operation asks of the daemon; waiting for a lock asks nothing. -/
def request? : Operation → Option Request
  | .list all => some (.list all)
  | .health => some (.list false)
  | .start reference => some (.start reference)
  | .manage _ reference phase => phase.request? reference
  | .check image phase => some (phase.request image)
  | .sweep phase => some phase.request

/-- The id of the container that an operation is about, once it is known. -/
def fullId? : Operation → Option String
  | .manage _ _ phase => phase.fullId?
  | _ => none

/-- What an update knows of the container that it replaces, once it knows it. -/
def target? : Operation → Option Lifecycle.Target
  | .manage _ _ phase => phase.target?
  | _ => none

/-- The id of which the lock is waited for. -/
def awaitedLock? : Operation → Option String
  | .manage _ _ phase => phase.awaitedLock?
  | _ => none

/-- The id of which the lock is held. -/
def heldLock? : Operation → Option String
  | .manage _ _ phase => phase.heldLock?
  | _ => none

/-- The value of an operation on one container. -/
def valueOfId : Option String → Value
  | none => .nothing
  | some id => .id id

/-- What comes after a phase, given the answers of the daemon. -/
def resume (guard : Guard) (answers : Answers) : Operation → Progress Operation Outcome
  | .list all =>
    .finished <| match answers (.list all) with
      | .ok records => .ok (.summaries (records.map ListingRecord.summary))
      | .error fault => .error (.ofFault fault)
  | .health =>
    .finished <| match answers (.list false) with
      | .ok records =>
        .ok (.summaries ((records.map ListingRecord.summary).filter fun s => !s.isRunning))
      | .error fault => .error (.ofFault fault)
  | .start reference =>
    .finished <| match answers (.start reference) with
      | .ok _ => .ok .nothing
      | .error fault => .error (.ofFault fault)
  | .manage action reference phase =>
    (Lifecycle.resume guard action reference answers phase).map
      (.manage action reference) (·.map valueOfId)
  | .check image phase => (ImageCheck.resume image answers phase).map (.check image) (·.map .flag)
  | .sweep phase => (Sweep.resume answers phase).map .sweep (·.map .names)

/-! ### Every operation ends -/

/-- How far an operation is from its end. -/
def rank : Operation → Rank
  | .list _ | .health | .start _ => (0, 0)
  | .manage _ _ phase => phase.rank
  | .check _ phase => (0, phase.rank)
  | .sweep phase => phase.rank

/-- Every step brings an operation nearer to its end. -/
theorem rank_resume {guard : Guard} {answers : Answers} {op next : Operation}
    (h : op.resume guard answers = .running next) : next.rank.Below op.rank := by
  cases op with
  | list all => cases h
  | health => cases h
  | start reference => cases h
  | manage action reference phase =>
    simp only [resume, Progress.map] at h
    split at h
    · cases h; rename_i hphase; exact Lifecycle.rank_resume hphase
    · cases h
  | check image phase =>
    simp only [resume, Progress.map] at h
    split at h
    · cases h; rename_i hphase; exact Rank.below_of_snd rfl (ImageCheck.rank_resume hphase)
    · cases h
  | sweep phase =>
    simp only [resume, Progress.map] at h
    split at h
    · cases h; rename_i hphase; exact Sweep.rank_resume hphase
    · cases h

/-- A daemon that answers one request at a time: the state afterwards and the answer. -/
abbrev Server (σ : Type) := σ → (request : Request) → σ × Answer request

/-- The answers of a daemon in a state. -/
def Server.answers {σ : Type} (server : Server σ) (s : σ) : Answers :=
  fun request => (server s request).2

/-- The state of a daemon after what an operation asks of it, if it asks anything. -/
def Server.after {σ : Type} (server : Server σ) (s : σ) (op : Operation) : σ :=
  match op.request? with
  | some request => (server s request).1
  | none => s

/-- Carries an operation out alone: the state of the daemon afterwards, and the outcome. Nobody else
holds a lock, so the lock is had as soon as it is asked for. -/
def run {σ : Type} (guard : Guard) (server : Server σ) (s : σ) (op : Operation) : σ × Outcome :=
  match _h : op.resume guard (server.answers s) with
  | .running next => run guard server (server.after s op) next
  | .finished outcome => (server.after s op, outcome)
termination_by op.rank
decreasing_by exact rank_resume _h

end Operation

end Dockmaster
