import Dockmaster.Proofs.Operation.Path
import Mathlib.Tactic.SplitIfs

/-!
# What a phase tells of the past

An operation that stops, restarts or updates a container can be in a phase only after it has heard
certain answers. `Lifecycle.Story` says which, and `story_of_path` shows it of every path.

The list of what was heard begins with the two inspections. What an update knows of its container
comes from the second one (`Opened`), and every later answer is the one that the update went on
after: a success, except that it also goes on after a container that was stopped already and after
networks that could not be connected.
-/

namespace Dockmaster

/-- Whether a request creates a container. -/
def Request.isCreate : Request → Bool
  | .create _ _ => true
  | _ => false

namespace Lifecycle

/-! ### Stories -/

/-- What was heard begins with two inspections, of which the second finds the container unprotected;
`rest` was heard afterwards. -/
structure Opened (guard : Guard) (reference fullId : String) (info : InspectRecord)
    (rest heard : List Exchange) : Prop where
  /-- The first inspection tells the id, and the second one is of this id. -/
  begins : ∃ first : InspectRecord, first.id.getD reference = fullId ∧
    heard = ⟨.inspect reference, .ok first⟩ :: ⟨.inspect fullId, .ok info⟩ :: rest
  /-- The second inspection finds the container unprotected. -/
  spared : vetoed guard reference fullId info = false

theorem Opened.snoc {guard : Guard} {reference fullId : String} {info : InspectRecord}
    {rest heard : List Exchange} (h : Opened guard reference fullId info rest heard)
    (exchange : Exchange) :
    Opened guard reference fullId info (rest ++ [exchange]) (heard ++ [exchange]) where
  begins := by
    obtain ⟨first, hfirst, rfl⟩ := h.begins
    exact ⟨first, hfirst, rfl⟩
  spared := h.spared

/-- The request to connect a replacement to a network. -/
def connectTo (newId : String) (network : Attachment) : Request :=
  .connect network.network newId network.aliases

/-- What an update has heard besides the two inspections when it has stopped its container. -/
def haltedBy (target : Target) (stopped : Except DaemonFault Unit) : List Exchange :=
  [⟨.pull target.image, .ok ()⟩, ⟨.stop target.fullId updateStopGrace, stopped⟩]

/-- What an update has heard besides the two inspections when it has removed its container. -/
def removedBy (target : Target) (stopped : Except DaemonFault Unit) : List Exchange :=
  haltedBy target stopped ++ [⟨.remove target.fullId true, .ok ()⟩]

/-- What an update has heard besides the two inspections when it has created the replacement. -/
def createdBy (target : Target) (stopped : Except DaemonFault Unit) (newId : String) :
    List Exchange :=
  removedBy target stopped ++
    [⟨.create target.name (target.snapshot.createConfig target.image), .ok newId⟩]

/-- An update has heard two inspections, of which the second says all that it knows of its
container, and `rest` afterwards. -/
def Replaces (guard : Guard) (action : Action) (reference : String) (target : Target)
    (rest heard : List Exchange) : Prop :=
  action = .update ∧ ∃ info, target = .ofRecord target.fullId info ∧
    Opened guard reference target.fullId info rest heard

/-- **What must have been heard** for an operation to be in a phase. -/
def Story (guard : Guard) (action : Action) (reference : String) (heard : List Exchange) :
    Phase → Prop
  | .resolving => heard = []
  | .queueing fullId | .rechecking fullId =>
    ∃ first : InspectRecord, first.id.getD reference = fullId ∧
      heard = [⟨.inspect reference, .ok first⟩]
  | .stopping fullId =>
    action = .stop ∧ ∃ info, Opened guard reference fullId info [] heard
  | .restarting fullId =>
    action = .restart ∧ ∃ info, Opened guard reference fullId info [] heard
  | .pulling target => Replaces guard action reference target [] heard
  | .halting target =>
    Replaces guard action reference target [⟨.pull target.image, .ok ()⟩] heard
  | .removing target =>
    ∃ stopped, HaltTolerated stopped ∧
      Replaces guard action reference target (haltedBy target stopped) heard
  | .creating target =>
    ∃ stopped, HaltTolerated stopped ∧
      Replaces guard action reference target (removedBy target stopped) heard
  | .connecting target newId network left =>
    ∃ stopped connects, HaltTolerated stopped ∧
      connects.map Exchange.request ++ (network :: left).map (connectTo newId) =
        target.snapshot.reconnect.map (connectTo newId) ∧
      Replaces guard action reference target (createdBy target stopped newId ++ connects) heard
  | .starting target newId =>
    ∃ stopped connects, HaltTolerated stopped ∧
      connects.map Exchange.request = target.snapshot.reconnect.map (connectTo newId) ∧
      Replaces guard action reference target (createdBy target stopped newId ++ connects) heard

section Story

variable {guard : Guard} {action : Action} {reference : String} {heard : List Exchange}

theorem Replaces.snoc {target : Target} {rest : List Exchange}
    (h : Replaces guard action reference target rest heard) {request : Request}
    {answer said : Answer request} (hanswer : answer = said) :
    Replaces guard action reference target (rest ++ [⟨request, said⟩])
      (heard ++ [⟨request, answer⟩]) := by
  obtain ⟨haction, info, htarget, hopened⟩ := h
  subst hanswer
  exact ⟨haction, info, htarget, hopened.snoc _⟩

/-- The networks that are left, or the start of the replacement, come after those that were
connected. -/
theorem story_reconnecting {target : Target} {newId : String} {stopped : Except DaemonFault Unit}
    (connects : List Exchange) (left : List Attachment) (tolerated : HaltTolerated stopped)
    (order : connects.map Exchange.request ++ left.map (connectTo newId) =
      target.snapshot.reconnect.map (connectTo newId))
    (replaces : Replaces guard action reference target
      (createdBy target stopped newId ++ connects) heard) :
    Story guard action reference heard (reconnecting target newId left) := by
  cases left with
  | nil =>
    rw [List.map_nil, List.append_nil] at order
    exact ⟨stopped, connects, tolerated, order, replaces⟩
  | cons network rest => exact ⟨stopped, connects, tolerated, order, replaces⟩

/-- **An answer leads on in the story.** -/
theorem Story.leads {answers : Answers} {phase next : Phase} {request : Request}
    (story : Story guard action reference heard phase)
    (asks : phase.request? reference = some request)
    (leads : Leads guard action reference answers phase next) :
    Story guard action reference (heard ++ [⟨request, answers request⟩]) next := by
  cases leads with
  | @resolved info told =>
    obtain rfl := Option.some.inj asks
    obtain rfl : heard = [] := story
    exact ⟨info, rfl, by rw [told]; rfl⟩
  | locked fullId => cases asks
  | @spared fullId info told spared =>
    obtain rfl := Option.some.inj asks
    obtain ⟨first, hfirst, rfl⟩ := story
    -- from here on the record of the second inspection is the one that counts
    have hopened : Opened guard reference fullId info []
        ([⟨.inspect reference, .ok first⟩] ++ [⟨.inspect fullId, answers (.inspect fullId)⟩]) :=
      ⟨⟨first, hfirst, by rw [told]; rfl⟩, spared⟩
    cases action with
    | stop => exact ⟨rfl, info, hopened⟩
    | restart => exact ⟨rfl, info, hopened⟩
    | update => exact ⟨rfl, info, rfl, hopened⟩
  | pulled pulled =>
    obtain rfl := Option.some.inj asks
    exact Replaces.snoc story pulled
  | @halted target stopped halted tolerated =>
    obtain rfl := Option.some.inj asks
    exact ⟨stopped, tolerated, Replaces.snoc story halted⟩
  | removed removed =>
    obtain rfl := Option.some.inj asks
    obtain ⟨stopped, tolerated, hreplaces⟩ := story
    exact ⟨stopped, tolerated, hreplaces.snoc removed⟩
  | @created target newId created =>
    obtain rfl := Option.some.inj asks
    obtain ⟨stopped, tolerated, hreplaces⟩ := story
    -- no network has been connected yet, and all of them are left
    refine story_reconnecting [] target.snapshot.reconnect tolerated rfl ?_
    rw [List.append_nil]
    exact hreplaces.snoc created
  | connected target newId network left =>
    obtain rfl := Option.some.inj asks
    obtain ⟨stopped, connects, tolerated, horder, hreplaces⟩ := story
    -- one network passes from those that are left to those that were asked for
    let connects' := connects ++ [⟨connectTo newId network, answers (connectTo newId network)⟩]
    refine story_reconnecting connects' left tolerated ?_ ?_
    · rw [← horder, List.map_append, List.append_assoc]
      rfl
    · rw [← List.append_assoc]
      exact hreplaces.snoc rfl

/-- An operation looks its container up, or knows the id and waits for the lock or looks again, or
has been through both inspections and holds the lock. -/
theorem Story.stages {phase : Phase} (story : Story guard action reference heard phase) :
    (phase = .resolving ∧ heard = []) ∨
      (∃ first : InspectRecord, heard = [⟨.inspect reference, .ok first⟩] ∧
        (phase = .queueing (first.id.getD reference) ∨
          phase = .rechecking (first.id.getD reference))) ∨
      ∃ fullId info rest, Opened guard reference fullId info rest heard ∧
        phase.heldLock? = some fullId := by
  cases phase with
  | resolving => exact .inl ⟨rfl, story⟩
  | queueing fullId =>
    obtain ⟨first, rfl, hheard⟩ := story
    exact .inr (.inl ⟨first, hheard, .inl rfl⟩)
  | rechecking fullId =>
    obtain ⟨first, rfl, hheard⟩ := story
    exact .inr (.inl ⟨first, hheard, .inr rfl⟩)
  | stopping fullId =>
    obtain ⟨-, info, hopened⟩ := story
    exact .inr (.inr ⟨_, info, _, hopened, rfl⟩)
  | restarting fullId =>
    obtain ⟨-, info, hopened⟩ := story
    exact .inr (.inr ⟨_, info, _, hopened, rfl⟩)
  | pulling target =>
    obtain ⟨-, info, -, hopened⟩ := story
    exact .inr (.inr ⟨_, info, _, hopened, rfl⟩)
  | halting target =>
    obtain ⟨-, info, -, hopened⟩ := story
    exact .inr (.inr ⟨_, info, _, hopened, rfl⟩)
  | removing target =>
    obtain ⟨_, -, -, info, -, hopened⟩ := story
    exact .inr (.inr ⟨_, info, _, hopened, rfl⟩)
  | creating target =>
    obtain ⟨_, -, -, info, -, hopened⟩ := story
    exact .inr (.inr ⟨_, info, _, hopened, rfl⟩)
  | connecting target newId network left =>
    obtain ⟨_, _, -, -, -, info, -, hopened⟩ := story
    exact .inr (.inr ⟨_, info, _, hopened, rfl⟩)
  | starting target newId =>
    obtain ⟨_, _, -, -, -, info, -, hopened⟩ := story
    exact .inr (.inr ⟨_, info, _, hopened, rfl⟩)

/-- An operation that has heard the answer to its first inspection knows the id from it. -/
theorem Story.fullId?_eq {phase : Phase} (story : Story guard action reference heard phase)
    {first : InspectRecord} {rest : List Exchange}
    (h : heard = ⟨.inspect reference, .ok first⟩ :: rest) :
    phase.fullId? = some (first.id.getD reference) := by
  rcases story.stages with ⟨-, hnil⟩ | ⟨_, hone, hphase⟩ | ⟨_, info, _, hopened, hheld⟩
  · rw [hnil] at h
    cases h
  · rw [hone] at h
    cases h
    rcases hphase with rfl | rfl <;> rfl
  · obtain ⟨_, rfl, heq⟩ := hopened.begins
    rw [heq] at h
    cases h
    cases phase <;> first | exact hheld | cases hheld

/-- An operation that has asked for more than its first inspection holds the lock. -/
theorem Story.heldLock?_eq {phase : Phase} (story : Story guard action reference heard phase)
    (h : 2 ≤ (heard.map Exchange.request ++ (phase.request? reference).toList).length) :
    phase.heldLock? = phase.fullId? := by
  rcases story.stages with ⟨rfl, rfl⟩ | ⟨first, rfl, rfl | rfl⟩ | ⟨_, info, _, -, hheld⟩
  · simp [Phase.request?] at h
  · simp [Phase.request?] at h
  · rfl
  · cases phase <;> first | rfl | cases hheld

/-- An operation that has heard the answers to both inspections was not refused. -/
theorem Story.spared {phase : Phase} (story : Story guard action reference heard phase)
    {fullId : String} {first info : InspectRecord} {rest : List Exchange}
    (h : heard = ⟨.inspect reference, .ok first⟩ :: ⟨.inspect fullId, .ok info⟩ :: rest) :
    vetoed guard reference fullId info = false := by
  rcases story.stages with ⟨-, hnil⟩ | ⟨_, hone, -⟩ | ⟨_, _, _, hopened, -⟩
  · rw [hnil] at h
    cases h
  · rw [hone] at h
    cases h
  · obtain ⟨_, -, hheard⟩ := hopened.begins
    have htail := (List.cons.inj (hheard.symm.trans h)).2
    obtain ⟨rfl, hinfo⟩ := Exchange.inspect_inj (List.cons.inj htail).1
    cases hinfo
    exact hopened.spared

theorem Opened.countP_create {fullId : String} {info : InspectRecord} {rest : List Exchange}
    (h : Opened guard reference fullId info rest heard) :
    (heard.map Exchange.request).countP (·.isCreate) =
      (rest.map Exchange.request).countP (·.isCreate) := by
  obtain ⟨first, -, rfl⟩ := h.begins
  rfl

theorem Opened.subset {fullId : String} {info : InspectRecord} {rest : List Exchange}
    (h : Opened guard reference fullId info rest heard) : rest ⊆ heard := by
  obtain ⟨first, -, rfl⟩ := h.begins
  exact fun _ hmem => List.mem_cons_of_mem _ (List.mem_cons_of_mem _ hmem)

/-- To connect a replacement creates nothing. -/
theorem countP_create_connects {newId : String} {connects : List Exchange}
    {left all : List Attachment}
    (order : connects.map Exchange.request ++ left.map (connectTo newId) =
      all.map (connectTo newId)) :
    (connects.map Exchange.request).countP (·.isCreate) = 0 := by
  rw [List.countP_eq_zero]
  intro request hrequest
  have hmem : request ∈ all.map (connectTo newId) := order ▸ List.mem_append_left _ hrequest
  obtain ⟨network, -, rfl⟩ := List.mem_map.mp hmem
  exact Bool.false_ne_true

/-- **At most one replacement**: an operation asks once at most for a container to be created, and
only an update does so that has removed its own. -/
theorem Story.creates {phase : Phase} (story : Story guard action reference heard phase) :
    (heard.map Exchange.request ++ (phase.request? reference).toList).countP (·.isCreate) ≤ 1 ∧
      (0 < (heard.map Exchange.request ++ (phase.request? reference).toList).countP (·.isCreate) →
        action = .update ∧ ∃ fullId, phase.fullId? = some fullId ∧
          ⟨.remove fullId true, .ok ()⟩ ∈ heard) := by
  rw [List.countP_append]
  cases phase with
  | resolving =>
    obtain rfl : heard = [] := story
    simp [Phase.request?, Request.isCreate]
  | queueing fullId =>
    obtain ⟨first, -, rfl⟩ := story
    simp [Phase.request?, Request.isCreate]
  | rechecking fullId =>
    obtain ⟨first, -, rfl⟩ := story
    simp [Phase.request?, Request.isCreate]
  | stopping fullId =>
    obtain ⟨-, info, hopened⟩ := story
    rw [hopened.countP_create]
    simp [Phase.request?, Request.isCreate]
  | restarting fullId =>
    obtain ⟨-, info, hopened⟩ := story
    rw [hopened.countP_create]
    simp [Phase.request?, Request.isCreate]
  | pulling target =>
    obtain ⟨-, info, -, hopened⟩ := story
    rw [hopened.countP_create]
    simp [Phase.request?, Request.isCreate]
  | halting target =>
    obtain ⟨-, info, -, hopened⟩ := story
    rw [hopened.countP_create]
    simp [Phase.request?, Request.isCreate]
  | removing target =>
    obtain ⟨_, -, -, info, -, hopened⟩ := story
    rw [hopened.countP_create]
    simp [haltedBy, Phase.request?, Request.isCreate]
  | creating target =>
    obtain ⟨_, -, haction, info, -, hopened⟩ := story
    rw [hopened.countP_create]
    -- the one request to create is the one that waits for an answer
    refine ⟨by simp [removedBy, haltedBy, Phase.request?, Request.isCreate], fun _ => ?_⟩
    exact ⟨haction, _, rfl, hopened.subset (by simp [removedBy])⟩
  | connecting target newId network left =>
    obtain ⟨_, connects, -, horder, haction, info, -, hopened⟩ := story
    rw [hopened.countP_create, List.map_append, List.countP_append, countP_create_connects horder]
    refine ⟨by simp [createdBy, removedBy, haltedBy, Phase.request?, Request.isCreate], fun _ => ?_⟩
    exact ⟨haction, _, rfl, hopened.subset (by simp [createdBy, removedBy])⟩
  | starting target newId =>
    obtain ⟨_, connects, -, horder, haction, info, -, hopened⟩ := story
    rw [← List.append_nil (connects.map _), ← List.map_nil] at horder
    rw [hopened.countP_create, List.map_append, List.countP_append, countP_create_connects horder]
    refine ⟨by simp [createdBy, removedBy, haltedBy, Phase.request?, Request.isCreate], fun _ => ?_⟩
    exact ⟨haction, _, rfl, hopened.subset (by simp [createdBy, removedBy])⟩

end Story

end Lifecycle

/-- **The story of a path.** -/
theorem Operation.story_of_path {guard : Guard} {action : Lifecycle.Action} {reference : String}
    {heard : List Exchange} {op : Operation}
    (path : Path guard (.manage action reference .resolving) heard op) :
    ∃ phase, op = .manage action reference phase ∧
      Lifecycle.Story guard action reference heard phase := by
  induction path with
  | first => exact ⟨.resolving, rfl, rfl⟩
  | heard answers _ asks goesOn ih =>
    obtain ⟨phase, rfl, hstory⟩ := ih
    obtain ⟨next, rfl, hleads⟩ := leads_of_manage goesOn
    exact ⟨next, rfl, hstory.leads asks hleads⟩
  | locked answers _ waits goesOn ih =>
    obtain ⟨phase, rfl, hstory⟩ := ih
    -- only the phase that waits for the lock is left, and it has the story of the next one
    cases phase <;> cases waits
    cases goesOn
    exact ⟨_, rfl, hstory⟩

end Dockmaster
