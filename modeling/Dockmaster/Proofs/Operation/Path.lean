import Dockmaster.Operation.Basic

/-!
# The path of an operation

An operation by itself is driven by the answers that it hears. `Operation.Path` says which phase it
is in after it has heard some answers, one to each of its requests in turn; the moment at which it
gets a lock is no part of that. What an operation does among others is always such a path
(`Dockmaster.Engine.standing`), so what holds of all paths holds of every run.

`Lifecycle.Leads` lists the ways in which an operation on one container goes on, each with the
answer that it takes. The lock changes in one way only: the operation looks for the id, then waits
for the lock of that id, then holds it (`Operation.resume_lock`).
-/

namespace Dockmaster

/-- The container that a request stops, restarts or removes. -/
def Request.target? : Request → Option String
  | .stop reference _ => some reference
  | .restart reference _ => some reference
  | .remove reference _ => some reference
  | _ => none

/-- A request and the answer to it. -/
structure Exchange where
  /-- The request. -/
  request : Request
  /-- The answer. -/
  answer : Answer request

theorem Exchange.inspect_inj {a b : String} {x y : Except DaemonFault InspectRecord}
    (h : (⟨.inspect a, x⟩ : Exchange) = ⟨.inspect b, y⟩) : a = b ∧ x = y := by
  cases h
  exact ⟨rfl, rfl⟩

namespace Lifecycle

/-- Whether an update goes on after an answer to its request to stop the container. -/
def HaltTolerated : Except DaemonFault Unit → Prop
  | .ok _ => True
  | .error fault => ∃ message, ServiceError.ofFault fault = .alreadyInDesiredState message

/-- **What a phase leads on to**, and the answer after which it does. -/
inductive Leads (guard : Guard) (action : Action) (reference : String) (answers : Answers) :
    Phase → Phase → Prop
  /-- The first inspection tells the id. -/
  | resolved {info : InspectRecord} (told : answers (.inspect reference) = .ok info) :
      Leads guard action reference answers .resolving (.queueing (info.id.getD reference))
  /-- The lock of the id is there. -/
  | locked (fullId : String) :
      Leads guard action reference answers (.queueing fullId) (.rechecking fullId)
  /-- The second inspection finds the container unprotected. -/
  | spared {fullId : String} {info : InspectRecord}
      (told : answers (.inspect fullId) = .ok info)
      (spared : vetoed guard reference fullId info = false) :
      Leads guard action reference answers (.rechecking fullId) (firstPhase action fullId info)
  /-- The image is pulled. -/
  | pulled {target : Target} (pulled : answers (.pull target.image) = .ok ()) :
      Leads guard action reference answers (.pulling target) (.halting target)
  /-- The container is stopped, or was stopped already. -/
  | halted {target : Target} {stopped : Except DaemonFault Unit}
      (halted : answers (.stop target.fullId updateStopGrace) = stopped)
      (tolerated : HaltTolerated stopped) :
      Leads guard action reference answers (.halting target) (.removing target)
  /-- The container is removed. -/
  | removed {target : Target} (removed : answers (.remove target.fullId true) = .ok ()) :
      Leads guard action reference answers (.removing target) (.creating target)
  /-- The replacement is created. -/
  | created {target : Target} {newId : String}
      (created : answers (.create target.name (target.snapshot.createConfig target.image)) =
        .ok newId) :
      Leads guard action reference answers (.creating target)
        (reconnecting target newId target.snapshot.reconnect)
  /-- The replacement is connected to a network, or cannot be. -/
  | connected (target : Target) (newId : String) (network : Attachment) (left : List Attachment) :
      Leads guard action reference answers (.connecting target newId network left)
        (reconnecting target newId left)

/-- **A phase goes on as `Leads` says.** -/
theorem leads_of_resume {guard : Guard} {action : Action} {reference : String} {answers : Answers}
    {phase next : Phase} (h : resume guard action reference answers phase = .running next) :
    Leads guard action reference answers phase next := by
  cases phase with
  | resolving =>
    simp only [resume] at h
    split at h
    · rename_i info htold
      cases h
      exact .resolved htold
    · cases h
  | queueing fullId =>
    cases h
    exact .locked fullId
  | rechecking fullId =>
    simp only [resume] at h
    split at h
    · rename_i info htold
      split at h
      · cases h
      · rename_i hspared
        cases h
        exact .spared htold (Bool.of_not_eq_true hspared)
    · cases h
  | stopping fullId =>
    -- whoever only stops or restarts a container is over with the answer
    simp only [resume, concluded] at h
    split at h <;> cases h
  | restarting fullId =>
    simp only [resume, concluded] at h
    split at h <;> cases h
  | pulling target =>
    simp only [resume, stageFailed] at h
    split at h
    · rename_i hpulled
      cases h
      exact .pulled hpulled
    · cases h
  | halting target =>
    simp only [resume, stageFailed] at h
    split at h
    · rename_i hhalted
      cases h
      exact .halted hhalted trivial
    · rename_i fault hhalted
      split at h
      · rename_i message hmessage
        cases h
        exact .halted hhalted ⟨message, hmessage⟩
      · cases h
  | removing target =>
    simp only [resume, stageFailed] at h
    split at h
    · rename_i hremoved
      cases h
      exact .removed hremoved
    · cases h
  | creating target =>
    simp only [resume, stageFailed] at h
    split at h
    · rename_i newId hcreated
      cases h
      exact .created hcreated
    · cases h
  | connecting target newId network left =>
    cases h
    exact .connected target newId network left
  | starting target newId =>
    simp only [resume, stageFailed] at h
    split at h <;> cases h

/-- Whatever networks are left, the lock stays. -/
theorem heldLock?_reconnecting (target : Target) (newId : String) (left : List Attachment) :
    (reconnecting target newId left).heldLock? = some target.fullId := by
  cases left <;> rfl

/-- A phase that goes on either learns the id, or gets the lock, or keeps the lock. -/
theorem Leads.lock {guard : Guard} {action : Action} {reference : String} {answers : Answers}
    {phase next : Phase} (h : Leads guard action reference answers phase next) :
    (phase = .resolving ∧ ∃ id, next = .queueing id) ∨
      (∃ id, phase = .queueing id ∧ next = .rechecking id) ∨
      ∃ id, phase.heldLock? = some id ∧ next.heldLock? = some id := by
  cases h with
  | resolved told => exact .inl ⟨rfl, _, rfl⟩
  | locked fullId => exact .inr (.inl ⟨fullId, rfl, rfl⟩)
  | @spared fullId info told spared =>
    refine .inr (.inr ⟨fullId, rfl, ?_⟩)
    cases action <;> rfl
  | @pulled target pulled => exact .inr (.inr ⟨target.fullId, rfl, rfl⟩)
  | @halted target stopped halted tolerated => exact .inr (.inr ⟨target.fullId, rfl, rfl⟩)
  | @removed target removed => exact .inr (.inr ⟨target.fullId, rfl, rfl⟩)
  | @created target newId created =>
    exact .inr (.inr ⟨target.fullId, rfl, heldLock?_reconnecting _ _ _⟩)
  | connected target newId network left =>
    exact .inr (.inr ⟨target.fullId, rfl, heldLock?_reconnecting _ _ _⟩)

end Lifecycle

namespace Operation

/-- An operation that has not done anything yet. -/
def IsNew : Operation → Prop
  | .list _ | .health | .start _ => True
  | .manage _ _ phase => phase = .resolving
  | .check _ phase => phase = .before
  | .sweep phase => phase = .listing

/-- What an operation has heard when it is in a phase. -/
inductive Path (guard : Guard) (first : Operation) : List Exchange → Operation → Prop
  /-- At first it has heard nothing. -/
  | first : Path guard first [] first
  /-- It hears the answer to its request and goes on. -/
  | heard {heard : List Exchange} {op next : Operation} {request : Request} (answers : Answers)
      (path : Path guard first heard op) (asks : op.request? = some request)
      (goesOn : op.resume guard answers = .running next) :
      Path guard first (heard ++ [⟨request, answers request⟩]) next
  /-- It gets the lock that it waits for and goes on. -/
  | locked {heard : List Exchange} {op next : Operation} {id : String} (answers : Answers)
      (path : Path guard first heard op) (waits : op.awaitedLock? = some id)
      (goesOn : op.resume guard answers = .running next) : Path guard first heard next

/-! ### Locks -/

theorem eq_of_awaitedLock? {op : Operation} {id : String} (h : op.awaitedLock? = some id) :
    ∃ action reference, op = .manage action reference (.queueing id) := by
  cases op with
  | manage action reference phase =>
    cases phase <;> cases h
    exact ⟨action, reference, rfl⟩
  | _ => cases h

theorem heldLock?_of_awaitedLock? {op : Operation} {id : String} (h : op.awaitedLock? = some id) :
    op.heldLock? = none := by
  obtain ⟨action, reference, rfl⟩ := eq_of_awaitedLock? h
  rfl

/-- An operation that knows the id of its container waits for the lock of that id or holds it. -/
theorem fullId?_eq_some_iff {op : Operation} {id : String} :
    op.fullId? = some id ↔ op.awaitedLock? = some id ∨ op.heldLock? = some id := by
  cases op with
  | manage action reference phase =>
    cases phase <;> simp [fullId?, awaitedLock?, heldLock?, Lifecycle.Phase.fullId?,
      Lifecycle.Phase.awaitedLock?, Lifecycle.Phase.heldLock?]
  | _ => simp [fullId?, awaitedLock?, heldLock?]

theorem IsNew.fullId?_eq_none {op : Operation} (h : op.IsNew) : op.fullId? = none := by
  cases op with
  | manage action reference phase =>
    obtain rfl : phase = .resolving := h
    rfl
  | _ => rfl

theorem request?_of_awaitedLock? {op : Operation} {id : String} (h : op.awaitedLock? = some id) :
    op.request? = none := by
  obtain ⟨action, reference, rfl⟩ := eq_of_awaitedLock? h
  rfl

/-- An operation on one container goes on as its phase does. -/
theorem leads_of_manage {guard : Guard} {answers : Answers} {action : Lifecycle.Action}
    {reference : String} {phase : Lifecycle.Phase} {next : Operation}
    (h : (manage action reference phase).resume guard answers = .running next) :
    ∃ next', next = .manage action reference next' ∧
      Lifecycle.Leads guard action reference answers phase next' := by
  simp only [resume, Progress.map] at h
  split at h
  · rename_i next' hnext
    cases h
    exact ⟨next', rfl, Lifecycle.leads_of_resume hnext⟩
  · cases h

/-- **The life of a lock**: an operation that goes on knows of no lock before and after, or begins
to wait for one, or gets it, or keeps it. -/
theorem resume_lock {guard : Guard} {answers : Answers} {op next : Operation}
    (h : op.resume guard answers = .running next) :
    (op.fullId? = none ∧ next.fullId? = none) ∨
      (op.fullId? = none ∧ ∃ id, next.awaitedLock? = some id) ∨
      (∃ id, op.awaitedLock? = some id ∧ next.heldLock? = some id) ∨
      ∃ id, op.heldLock? = some id ∧ next.heldLock? = some id := by
  cases op with
  | list all => cases h
  | health => cases h
  | start reference => cases h
  | manage action reference phase =>
    obtain ⟨next, rfl, hleads⟩ := leads_of_manage h
    rcases hleads.lock with ⟨rfl, id, rfl⟩ | ⟨id, rfl, rfl⟩ | ⟨id, hheld, hnext⟩
    · exact .inr (.inl ⟨rfl, id, rfl⟩)
    · exact .inr (.inr (.inl ⟨id, rfl, rfl⟩))
    · exact .inr (.inr (.inr ⟨id, hheld, hnext⟩))
  | check image phase =>
    simp only [resume, Progress.map] at h
    split at h
    · cases h
      exact .inl ⟨rfl, rfl⟩
    · cases h
  | sweep phase =>
    simp only [resume, Progress.map] at h
    split at h
    · cases h
      exact .inl ⟨rfl, rfl⟩
    · cases h

section Resume

variable {guard : Guard} {answers : Answers} {op next : Operation} {request : Request}
  {id : String}

/-- An operation that hears an answer and has to get a lock did not know of one. -/
theorem fullId?_eq_none_of_waits (asks : op.request? = some request)
    (goesOn : op.resume guard answers = .running next) (waits : next.awaitedLock? = some id) :
    op.fullId? = none := by
  rcases resume_lock goesOn with ⟨hop, -⟩ | ⟨hop, -⟩ | ⟨j, hop, -⟩ | ⟨j, -, hnext⟩
  · exact hop
  · exact hop
  · rw [request?_of_awaitedLock? hop] at asks
    cases asks
  · rw [heldLock?_of_awaitedLock? waits] at hnext
    cases hnext

/-- An operation that hears an answer and need not get a lock has the lock that it had. -/
theorem heldLock?_eq_of_free (asks : op.request? = some request)
    (goesOn : op.resume guard answers = .running next) (free : next.awaitedLock? = none) :
    next.fullId? = op.fullId? ∧ next.heldLock? = op.heldLock? := by
  -- whoever does not know its container has no lock
  have hnone {o : Operation} (h : o.fullId? = none) : o.heldLock? = none := by
    apply Option.eq_none_iff_forall_ne_some.mpr
    intro j hj
    rw [fullId?_eq_some_iff.mpr (.inr hj)] at h
    cases h
  rcases resume_lock goesOn with ⟨hop, hnext⟩ | ⟨-, j, hnext⟩ | ⟨j, hop, -⟩ | ⟨j, hop, hnext⟩
  · rw [hop, hnext, hnone hop, hnone hnext]
    exact ⟨rfl, rfl⟩
  · rw [free] at hnext
    cases hnext
  · rw [request?_of_awaitedLock? hop] at asks
    cases asks
  · rw [fullId?_eq_some_iff.mpr (.inr hop), fullId?_eq_some_iff.mpr (.inr hnext), hop, hnext]
    exact ⟨rfl, rfl⟩

/-- An operation that waits for a lock goes on with it. -/
theorem heldLock?_of_gets (waits : op.awaitedLock? = some id)
    (goesOn : op.resume guard answers = .running next) : next.heldLock? = some id := by
  obtain ⟨action, reference, rfl⟩ := eq_of_awaitedLock? waits
  cases goesOn
  rfl

end Resume

/-! ### Who acts on containers -/

/-- Whether an operation stops, restarts or updates a container. -/
def isManage : Operation → Bool
  | .manage _ _ _ => true
  | _ => false

theorem IsNew.eq_of_isManage {op : Operation} (h : op.IsNew) (hmanage : op.isManage = true) :
    ∃ action reference, op = .manage action reference .resolving := by
  cases op with
  | manage action reference phase =>
    obtain rfl : phase = .resolving := h
    exact ⟨action, reference, rfl⟩
  | _ => cases hmanage

/-- An operation stays what it is. -/
theorem isManage_resume {guard : Guard} {answers : Answers} {op next : Operation}
    (h : op.resume guard answers = .running next) : next.isManage = op.isManage := by
  cases op with
  | list all => cases h
  | health => cases h
  | start reference => cases h
  | manage action reference phase =>
    obtain ⟨next, rfl, -⟩ := leads_of_manage h
    rfl
  | check image phase =>
    simp only [resume, Progress.map] at h
    split at h <;> cases h
    rfl
  | sweep phase =>
    simp only [resume, Progress.map] at h
    split at h <;> cases h
    rfl

/-- An operation that neither stops, restarts nor updates a container asks for none of what these
do. -/
theorem target?_of_not_isManage {op : Operation} (h : op.isManage = false) {request : Request}
    (asks : op.request? = some request) : request.target? = none := by
  cases op with
  | list all => obtain rfl := Option.some.inj asks; rfl
  | health => obtain rfl := Option.some.inj asks; rfl
  | start reference => obtain rfl := Option.some.inj asks; rfl
  | manage action reference phase => cases h
  | check image phase =>
    obtain rfl := Option.some.inj asks
    cases phase <;> rfl
  | sweep phase =>
    obtain rfl := Option.some.inj asks
    cases phase with
    | listing => rfl
    | checking container check rest found => cases check <;> rfl

theorem Path.isManage_eq {guard : Guard} {first op : Operation} {heard : List Exchange}
    (path : Path guard first heard op) : op.isManage = first.isManage := by
  induction path with
  | first => rfl
  | heard answers path asks goesOn ih => exact (isManage_resume goesOn).trans ih
  | locked answers path waits goesOn ih => exact (isManage_resume goesOn).trans ih

/-- **Only the operations on one container stop, restart or remove any.** -/
theorem Path.target?_of_not_isManage {guard : Guard} {first op : Operation}
    {heard : List Exchange} (path : Path guard first heard op) (h : first.isManage = false) :
    ∀ request ∈ heard.map Exchange.request ++ op.request?.toList, request.target? = none := by
  have hlast {op : Operation} {heard : List Exchange} (path : Path guard first heard op) :
      ∀ request, op.request? = some request → request.target? = none :=
    fun _ asks => Operation.target?_of_not_isManage (path.isManage_eq.trans h) asks
  -- each request that was answered was once the last one on the path
  have hbefore : ∀ exchange ∈ heard, exchange.request.target? = none := by
    induction path with
    | first => exact fun _ hmem => absurd hmem List.not_mem_nil
    | heard answers path asks goesOn ih =>
      intro exchange hmem
      rcases List.mem_append.mp hmem with hmem | hmem
      · exact ih exchange hmem
      · rw [List.mem_singleton.mp hmem]
        exact hlast path _ asks
    | locked answers path waits goesOn ih => exact ih
  intro request hmem
  rcases List.mem_append.mp hmem with hmem | hmem
  · obtain ⟨exchange, hexchange, rfl⟩ := List.mem_map.mp hmem
    exact hbefore exchange hexchange
  · exact hlast path request (Option.mem_toList.mp hmem)

end Operation

end Dockmaster
