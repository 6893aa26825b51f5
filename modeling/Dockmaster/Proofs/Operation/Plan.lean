import Dockmaster.Proofs.Container.Networks
import Dockmaster.Proofs.Operation.Ending
import Dockmaster.Proofs.Operation.Story
import Mathlib.Data.List.Basic
import Mathlib.Data.List.Forall2

/-!
# The plan of an update

An update follows a plan: a list of calls, each with a verdict that says of every answer whether the
update goes on after it and, if not, with what error it ends. The plan is fixed by the reference of
the caller, by the two records that the inspections tell and by the id of the replacement; `plan`
writes it down without any mention of phases.

- `Ends.verdict`: a phase ends an update with the verdict on its call.
- `Story.position`: a phase stands at its call in the plan, and what was heard passes all calls
  before it.
- `Reported.of_verdict`: the errors that a plan can end with.
- `pairwise_reconnect`, `perm_reconnect`: the order of the networks that a replacement is connected
  to, and which these are.
-/

namespace Dockmaster

/-- The failure that an exchange ends with, if it does. -/
def Exchange.fault? (exchange : Exchange) : Option DaemonFault :=
  match exchange.answer with
  | .ok _ => none
  | .error fault => some fault

/-- The stage of an update that a request belongs to, if its failure fails the update in a stage. -/
def Request.stage? : Request → Option UpdateStage
  | .pull _ => some .pull
  | .stop _ _ => some .stop
  | .remove _ _ => some .remove
  | .create _ _ => some .create
  | .start _ => some .start
  | _ => none

namespace Lifecycle

/-! ### Calls -/

/-- A call of an update: what is asked, and the error that an exchange ends the update with, if it
does not go on. -/
structure Call where
  /-- The request. -/
  request : Request
  /-- What an exchange ends the update with. -/
  verdict : Exchange → Option ServiceError

/-- The container must be there. -/
def present (exchange : Exchange) : Option ServiceError :=
  exchange.fault?.map .ofFault

/-- The container must be there, and must not be protected. -/
def unprotected (guard : Guard) (reference fullId : String) (info : InspectRecord)
    (exchange : Exchange) : Option ServiceError :=
  match exchange.fault? with
  | some fault => some (.ofFault fault)
  | none => if vetoed guard reference fullId info then some (.blacklisted reference) else none

/-- A step must succeed. -/
def needed (container : String) (stage : UpdateStage) (exchange : Exchange) :
    Option ServiceError :=
  exchange.fault?.map fun fault => .updateFailed container stage (.ofFault fault)

/-- An error, unless it says that there is nothing to do. -/
def grave? : ServiceError → Option ServiceError
  | .alreadyInDesiredState _ => none
  | e => some e

/-- A step must succeed, or there must be nothing to do. -/
def neededUnlessDone (container : String) (stage : UpdateStage) (exchange : Exchange) :
    Option ServiceError :=
  (exchange.fault?.bind fun fault => grave? (.ofFault fault)).map (.updateFailed container stage)

/-- A step need not succeed. -/
def optional (_ : Exchange) : Option ServiceError := none

/-- **The plan of an update**: what it asks for in turn, given the records of the two inspections
and the id of the replacement. -/
def plan (guard : Guard) (reference : String) (first info : InspectRecord) (newId : String) :
    List Call :=
  let fullId := first.id.getD reference
  let name := stripSlash (info.name.getD "")
  let image := (info.config.bind (·.image)).getD ""
  let snapshot := Snapshot.capture info
  [⟨.inspect reference, present⟩,
    ⟨.inspect fullId, unprotected guard reference fullId info⟩,
    ⟨.pull image, needed name .pull⟩,
    ⟨.stop fullId 30, neededUnlessDone name .stop⟩,
    ⟨.remove fullId true, needed name .remove⟩,
    ⟨.create name (snapshot.createConfig image), needed name .create⟩] ++
  (snapshot.reconnect.map (fun network => ⟨connectTo newId network, optional⟩) ++
  [⟨.start newId, needed name .start⟩])

/-- The records of the two inspections and the id of the replacement are what was heard of them. -/
structure Told (reference : String) (heard : List Exchange) (first info : InspectRecord)
    (newId : String) : Prop where
  /-- The first inspection. -/
  first_eq : ∀ record, heard[0]? = some ⟨.inspect reference, .ok record⟩ → record = first
  /-- The second inspection. -/
  info_eq : ∀ record, heard[1]? = some ⟨.inspect (first.id.getD reference), .ok record⟩ →
    record = info
  /-- The replacement. -/
  newId_eq : ∀ name config id, ⟨.create name config, .ok id⟩ ∈ heard → id = newId

/-- What was told by some time is told later, too. -/
theorem Told.of_append {reference : String} {heard more : List Exchange}
    {first info : InspectRecord} {newId : String}
    (told : Told reference (heard ++ more) first info newId) :
    Told reference heard first info newId where
  first_eq record h := told.first_eq record (by
    rw [List.getElem?_append_left (List.getElem?_eq_some_iff.mp h).1, h])
  info_eq record h := told.info_eq record (by
    rw [List.getElem?_append_left (List.getElem?_eq_some_iff.mp h).1, h])
  newId_eq name config id h := told.newId_eq name config id (List.mem_append_left _ h)

/-- There is a value that all values of a kind are equal to, if there are no two of them. -/
theorem exists_forall_eq {α : Type} [Inhabited α] {p : α → Prop}
    (unique : ∀ a b, p a → p b → a = b) : ∃ a, ∀ b, p b → b = a := by
  by_cases h : ∃ a, p a
  · obtain ⟨a, ha⟩ := h
    exact ⟨a, fun b hb => unique b a hb ha⟩
  · exact ⟨default, fun b hb => absurd ⟨b, hb⟩ h⟩

/-- Of an update that has asked for one replacement at most there is something told. -/
theorem exists_told {reference : String} {heard : List Exchange}
    (one : (heard.map Exchange.request).countP (·.isCreate) ≤ 1) :
    ∃ first info newId, Told reference heard first info newId := by
  have hinspect (i : Nat) (id : String) : ∃ info : InspectRecord, ∀ record,
      heard[i]? = some ⟨.inspect id, .ok record⟩ → record = info := by
    refine exists_forall_eq fun a b ha hb => ?_
    rw [ha] at hb
    cases hb
    rfl
  obtain ⟨first, hfirst⟩ := hinspect 0 reference
  obtain ⟨info, hinfo⟩ := hinspect 1 (first.id.getD reference)
  obtain ⟨newId, hnewId⟩ : ∃ newId : String, ∀ id,
      (∃ name config, ⟨.create name config, .ok id⟩ ∈ heard) → id = newId := by
    refine exists_forall_eq ?_
    rintro a b ⟨name, config, ha⟩ ⟨name', config', hb⟩
    -- two different answers would be to two requests
    rw [List.countP_map, List.countP_eq_length_filter] at one
    have ha' := List.mem_filter (p := (·.isCreate) ∘ Exchange.request).mpr ⟨ha, rfl⟩
    have hb' := List.mem_filter (p := (·.isCreate) ∘ Exchange.request).mpr ⟨hb, rfl⟩
    obtain ⟨exchange, hone⟩ :=
      List.length_eq_one_iff.mp (le_antisymm one (List.length_pos_of_mem ha'))
    rw [hone] at ha' hb'
    cases (List.mem_singleton.mp ha').trans (List.mem_singleton.mp hb').symm
    rfl
  exact ⟨first, info, newId, hfirst, hinfo, fun name config id h => hnewId id ⟨name, config, h⟩⟩

/-- An exchange is about a call, and the update goes on after it. -/
def Call.Passes (call : Call) (exchange : Exchange) : Prop :=
  exchange.request = call.request ∧ call.verdict exchange = none

/-! ### The calls of the phases -/

namespace Call

/-- The first inspection. -/
def lookUp (reference : String) : Call := ⟨.inspect reference, present⟩

/-- The second inspection. -/
def lookAgain (guard : Guard) (reference fullId : String) (info : InspectRecord) : Call :=
  ⟨.inspect fullId, unprotected guard reference fullId info⟩

/-- The image is pulled. -/
def pull (target : Target) : Call := ⟨.pull target.image, needed target.name .pull⟩

/-- The container is stopped. -/
def halt (target : Target) : Call := ⟨.stop target.fullId 30, neededUnlessDone target.name .stop⟩

/-- The container is removed. -/
def remove (target : Target) : Call := ⟨.remove target.fullId true, needed target.name .remove⟩

/-- The replacement is created. -/
def create (target : Target) : Call :=
  ⟨.create target.name (target.snapshot.createConfig target.image), needed target.name .create⟩

/-- The replacement is connected to a network. -/
def connect (newId : String) (network : Attachment) : Call := ⟨connectTo newId network, optional⟩

/-- The replacement is started. -/
def start (target : Target) (newId : String) : Call := ⟨.start newId, needed target.name .start⟩

end Call

/-- The call of the plan that an update is at in a phase. -/
def Phase.call? (guard : Guard) (reference : String) (info : InspectRecord) : Phase → Option Call
  | .resolving => some (.lookUp reference)
  | .rechecking fullId => some (.lookAgain guard reference fullId info)
  | .pulling target => some (.pull target)
  | .halting target => some (.halt target)
  | .removing target => some (.remove target)
  | .creating target => some (.create target)
  | .connecting _ newId network _ => some (.connect newId network)
  | .starting target newId => some (.start target newId)
  | .queueing _ | .stopping _ | .restarting _ => none

/-- What is left of the plan when the networks are to be connected. -/
def joining (target : Target) (newId : String) (networks : List Attachment) : List Call :=
  networks.map (.connect newId) ++ [.start target newId]

/-- The plan is made of the calls of the phases. -/
theorem plan_eq (guard : Guard) (reference : String) (first info : InspectRecord)
    (newId : String) :
    plan guard reference first info newId =
      let fullId := first.id.getD reference
      let target := Target.ofRecord fullId info
      [.lookUp reference, .lookAgain guard reference fullId info, .pull target, .halt target,
        .remove target, .create target] ++ joining target newId target.snapshot.reconnect :=
  rfl

section Position

variable {guard : Guard} {reference : String} {first info : InspectRecord} {newId : String}
  {heard : List Exchange} {phase : Phase} {call : Call}

/-! ### Verdicts -/

theorem fault?_of_ok {request : Request} {answer : Answer request} {reply : request.Reply}
    (h : answer = .ok reply) : (⟨request, answer⟩ : Exchange).fault? = none := by
  rw [h]
  rfl

theorem fault?_of_error {request : Request} {answer : Answer request} {fault : DaemonFault}
    (h : answer = .error fault) : (⟨request, answer⟩ : Exchange).fault? = some fault := by
  rw [h]
  rfl

theorem needed_of_error {container : String} {stage : UpdateStage} {request : Request}
    {answer : Answer request} {fault : DaemonFault} (h : answer = .error fault) :
    needed container stage ⟨request, answer⟩ =
      some (.updateFailed container stage (.ofFault fault)) := by
  rw [needed, fault?_of_error h]
  rfl

theorem grave?_of_tolerated {fault : DaemonFault} (h : HaltTolerated (.error fault)) :
    grave? (.ofFault fault) = none := by
  obtain ⟨message, hmessage⟩ := h
  rw [hmessage]
  rfl

theorem grave?_of_not_tolerated {fault : DaemonFault} (h : ¬ HaltTolerated (.error fault)) :
    grave? (.ofFault fault) = some (.ofFault fault) := by
  unfold grave?
  split
  · rename_i message hmessage
    exact absurd ⟨message, hmessage⟩ h
  · rfl

theorem grave?_eq_some {e e' : ServiceError} (h : grave? e = some e') : e = e' := by
  unfold grave? at h
  split at h
  · cases h
  · exact Option.some.inj h

theorem neededUnlessDone_of_error {container : String} {stage : UpdateStage} {request : Request}
    {answer : Answer request} {fault : DaemonFault} (h : answer = .error fault)
    (grave : ¬ HaltTolerated (.error fault)) :
    neededUnlessDone container stage ⟨request, answer⟩ =
      some (.updateFailed container stage (.ofFault fault)) := by
  rw [neededUnlessDone, fault?_of_error h, Option.bind_some, grave?_of_not_tolerated grave]
  rfl

/-- **The end of a phase is the verdict on its call**: either the error of an answer that the plan
does not go on after, or the id of the replacement that was started. -/
theorem Ends.verdict {answers : Answers} {result : Result}
    (ends : Ends guard reference answers phase result)
    (hcall : phase.call? guard reference info = some call)
    (told : ∀ fullId, phase = .rechecking fullId → ∀ record,
      answers (.inspect fullId) = .ok record → record = info) :
    (∃ e, result = .error e ∧ call.verdict ⟨call.request, answers call.request⟩ = some e) ∨
      ∃ target newId, phase = .starting target newId ∧ result = .ok (some newId) ∧
        call.verdict ⟨call.request, answers call.request⟩ = none := by
  cases ends with
  | unknown failed =>
    cases hcall
    refine .inl ⟨_, rfl, ?_⟩
    simp only [Call.lookUp, present, fault?_of_error failed, Option.map_some]
  | vanished failed =>
    cases hcall
    refine .inl ⟨_, rfl, ?_⟩
    simp only [Call.lookAgain, unprotected, fault?_of_error failed]
  | @refused fullId record told' veto =>
    cases hcall
    obtain rfl := told fullId rfl record told'
    refine .inl ⟨_, rfl, ?_⟩
    simp only [Call.lookAgain, unprotected, fault?_of_ok told', if_pos veto]
  | stopped fullId => cases hcall
  | restarted fullId => cases hcall
  | unpulled failed =>
    cases hcall
    exact .inl ⟨_, rfl, needed_of_error failed⟩
  | unhalted failed grave =>
    cases hcall
    exact .inl ⟨_, rfl, neededUnlessDone_of_error failed grave⟩
  | unremoved failed =>
    cases hcall
    exact .inl ⟨_, rfl, needed_of_error failed⟩
  | uncreated failed =>
    cases hcall
    exact .inl ⟨_, rfl, needed_of_error failed⟩
  | unstarted failed =>
    cases hcall
    exact .inl ⟨_, rfl, needed_of_error failed⟩
  | @started target newId started =>
    cases hcall
    refine .inr ⟨target, newId, rfl, rfl, ?_⟩
    simp only [Call.start, needed, fault?_of_ok started, Option.map_none]

/-! ### What passes the calls -/

theorem passes_halt {target : Target} {stopped : Except DaemonFault Unit}
    (tolerated : HaltTolerated stopped) :
    (Call.halt target).Passes ⟨.stop target.fullId updateStopGrace, stopped⟩ := by
  refine ⟨rfl, ?_⟩
  cases stopped with
  | ok _ => rfl
  | error fault =>
    simp only [Call.halt, neededUnlessDone, fault?_of_error rfl, Option.bind_some,
      grave?_of_tolerated tolerated, Option.map_none]

theorem passes_lookAgain {fullId : String}
    (spared : vetoed guard reference fullId info = false) :
    (Call.lookAgain guard reference fullId info).Passes ⟨.inspect fullId, .ok info⟩ := by
  refine ⟨rfl, ?_⟩
  simp only [Call.lookAgain, unprotected, fault?_of_ok rfl, spared]
  rfl

theorem passes_lookUp : (Call.lookUp reference).Passes ⟨.inspect reference, .ok first⟩ :=
  ⟨rfl, rfl⟩

theorem passed_pull (target : Target) :
    List.Forall₂ Call.Passes [.pull target] [⟨.pull target.image, .ok ()⟩] :=
  .cons ⟨rfl, rfl⟩ .nil

theorem passed_haltedBy {target : Target} {stopped : Except DaemonFault Unit}
    (tolerated : HaltTolerated stopped) :
    List.Forall₂ Call.Passes [.pull target, .halt target] (haltedBy target stopped) :=
  .cons ⟨rfl, rfl⟩ (.cons (passes_halt tolerated) .nil)

theorem passed_removedBy {target : Target} {stopped : Except DaemonFault Unit}
    (tolerated : HaltTolerated stopped) :
    List.Forall₂ Call.Passes [.pull target, .halt target, .remove target]
      (removedBy target stopped) :=
  List.rel_append (passed_haltedBy tolerated) (.cons ⟨rfl, rfl⟩ .nil)

theorem passed_createdBy (target : Target) (newId : String)
    {stopped : Except DaemonFault Unit} (tolerated : HaltTolerated stopped) :
    List.Forall₂ Call.Passes [.pull target, .halt target, .remove target, .create target]
      (createdBy target stopped newId) :=
  List.rel_append (passed_removedBy tolerated) (.cons ⟨rfl, rfl⟩ .nil)

/-- Whatever is heard of a network, the update goes on. -/
theorem passed_connects {networks : List Attachment} {connects : List Exchange}
    (h : connects.map Exchange.request = networks.map (connectTo newId)) :
    List.Forall₂ Call.Passes (networks.map (.connect newId)) connects := by
  induction networks generalizing connects with
  | nil =>
    rw [List.map_nil, List.map_eq_nil_iff] at h
    rw [h]
    exact .nil
  | cons network rest ih =>
    obtain ⟨exchange, connects, rfl, hexchange, hrest⟩ := List.map_eq_cons_iff.mp h
    exact .cons ⟨hexchange, rfl⟩ (ih hrest)

/-! ### The position of a phase -/

/-- The update is at a call of the plan: what was heard passes the calls before it. -/
def At (calls : List Call) (heard : List Exchange) (call : Call) (left : List Call) : Prop :=
  ∃ done, calls = done ++ call :: left ∧ List.Forall₂ Call.Passes done heard

/-- Whoever replaces a container has passed both inspections, and knows of its container what the
second one told. -/
theorem Replaces.of_told {target : Target} {rest : List Exchange}
    (replaces : Replaces guard .update reference target rest heard)
    (told : Told reference heard first info newId) :
    target = .ofRecord (first.id.getD reference) info ∧
      vetoed guard reference (first.id.getD reference) info = false ∧
      heard = ⟨.inspect reference, .ok first⟩ ::
        ⟨.inspect (first.id.getD reference), .ok info⟩ :: rest := by
  obtain ⟨-, record, htarget, hopened⟩ := replaces
  obtain ⟨first', hid, rfl⟩ := hopened.begins
  obtain rfl : first' = first := told.first_eq first' rfl
  have hspared := hopened.spared
  rw [← hid] at htarget hspared told ⊢
  obtain rfl : record = info := told.info_eq record rfl
  exact ⟨htarget, hspared, rfl⟩

/-- Whoever replaces a container is at the call of the plan that comes after what was heard since
the inspections. -/
theorem Replaces.at {target : Target} {rest : List Exchange} {done left : List Call}
    (replaces : Replaces guard .update reference target rest heard)
    (told : Told reference heard first info newId)
    (split : [.pull target, .halt target, .remove target, .create target] ++
      joining target newId target.snapshot.reconnect = done ++ call :: left)
    (passed : List.Forall₂ Call.Passes done rest) :
    At (plan guard reference first info newId) heard call left := by
  obtain ⟨rfl, hspared, rfl⟩ := replaces.of_told told
  refine ⟨_, ?_, .cons passes_lookUp (.cons (passes_lookAgain hspared) passed)⟩
  rw [List.cons_append, List.cons_append, ← split]
  exact plan_eq ..

theorem connectTo_injective (newId : String) : Function.Injective (connectTo newId) := by
  rintro ⟨network, aliases⟩ ⟨network', aliases'⟩ h
  obtain ⟨rfl, -, rfl⟩ := Request.connect.inj h
  rfl

/-- The replacement that was heard of is the one that the plan is for. -/
theorem Replaces.newId_eq {target : Target} {stopped : Except DaemonFault Unit} {id : String}
    {connects : List Exchange}
    (replaces : Replaces guard .update reference target (createdBy target stopped id ++ connects)
      heard)
    (told : Told reference heard first info newId) : id = newId := by
  obtain ⟨-, _, -, hopened⟩ := replaces
  have hcreated : ⟨.create target.name (target.snapshot.createConfig target.image), .ok id⟩ ∈
      createdBy target stopped id := List.mem_append_right _ (List.mem_singleton_self _)
  exact told.newId_eq _ _ id (hopened.subset (List.mem_append_left _ hcreated))

/-- **An update stands on its plan**: in every phase that asks for something, what was heard passes
all calls before the one of the phase, and the phase that starts the replacement is at the last
one. -/
theorem Story.position (story : Story guard .update reference heard phase)
    (told : Told reference heard first info newId)
    (hcall : phase.call? guard reference info = some call) :
    ∃ left, At (plan guard reference first info newId) heard call left ∧
      ∀ target id, phase = .starting target id → left = [] ∧ id = newId := by
  cases phase with
  | resolving =>
    cases hcall
    obtain rfl : heard = [] := story
    exact ⟨_, ⟨[], plan_eq .., .nil⟩, fun _ _ h => by cases h⟩
  | queueing fullId => cases hcall
  | rechecking fullId =>
    cases hcall
    obtain ⟨first', rfl, rfl⟩ := story
    obtain rfl : first' = first := told.first_eq first' rfl
    exact ⟨_, ⟨_, plan_eq .., .cons passes_lookUp .nil⟩, fun _ _ h => by cases h⟩
  | stopping fullId => cases hcall
  | restarting fullId => cases hcall
  | pulling target =>
    cases hcall
    exact ⟨_, Replaces.at story told (List.nil_append _).symm .nil, fun _ _ h => by cases h⟩
  | halting target =>
    cases hcall
    exact ⟨_, Replaces.at story told rfl (passed_pull target), fun _ _ h => by cases h⟩
  | removing target =>
    cases hcall
    obtain ⟨stopped, tolerated, hreplaces⟩ := story
    exact ⟨_, hreplaces.at told rfl (passed_haltedBy tolerated), fun _ _ h => by cases h⟩
  | creating target =>
    cases hcall
    obtain ⟨stopped, tolerated, hreplaces⟩ := story
    exact ⟨_, hreplaces.at told rfl (passed_removedBy tolerated), fun _ _ h => by cases h⟩
  | connecting target id network networks =>
    cases hcall
    obtain ⟨stopped, connects, tolerated, horder, hreplaces⟩ := story
    obtain rfl := hreplaces.newId_eq told
    -- the networks fall into those that were asked for, the one of the phase and those left
    obtain ⟨before, after, hnetworks, hbefore, hafter⟩ := List.map_eq_append_iff.mp horder.symm
    obtain rfl := List.map_injective_iff.mpr (connectTo_injective id) hafter
    have hpassed :=
      List.rel_append (passed_createdBy target id tolerated) (passed_connects hbefore.symm)
    refine ⟨joining target id networks, hreplaces.at told ?_ hpassed, fun _ _ h => by cases h⟩
    simp only [joining, hnetworks, List.map_append, List.map_cons, List.append_assoc,
      List.cons_append]
  | starting target id =>
    cases hcall
    obtain ⟨stopped, connects, tolerated, horder, hreplaces⟩ := story
    obtain rfl := hreplaces.newId_eq told
    have hpassed := List.rel_append (passed_createdBy target id tolerated) (passed_connects horder)
    refine ⟨[], hreplaces.at told ?_ hpassed, ?_⟩
    · exact (List.append_assoc ..).symm
    · rintro _ _ ⟨⟩
      exact ⟨rfl, rfl⟩

end Position

/-! ### Errors -/

/-- **The errors of an update** that ends with an exchange: the failure of an inspection as it is,
the veto of the guard, or the failure of a step under the name of the container and of the step. -/
inductive Reported (guard : Guard) (reference : String) (first info : InspectRecord)
    (exchange : Exchange) : ServiceError → Prop
  /-- An inspection fails. -/
  | unknown {id : String} {fault : DaemonFault} (about : exchange.request = .inspect id)
      (failed : exchange.fault? = some fault) :
      Reported guard reference first info exchange (.ofFault fault)
  /-- The container is protected. -/
  | refused (about : exchange.request = .inspect (first.id.getD reference))
      (told : exchange.fault? = none)
      (veto : vetoed guard reference (first.id.getD reference) info = true) :
      Reported guard reference first info exchange (.blacklisted reference)
  /-- A step fails. -/
  | failed {stage : UpdateStage} {fault : DaemonFault}
      (about : exchange.request.stage? = some stage) (failed : exchange.fault? = some fault) :
      Reported guard reference first info exchange
        (.updateFailed (stripSlash (info.name.getD "")) stage (.ofFault fault))

/-- The error of an update has at most one layer around the failure of the daemon. -/
theorem Reported.source? {guard : Guard} {reference : String} {first info : InspectRecord}
    {exchange : Exchange} {e : ServiceError} (h : Reported guard reference first info exchange e) :
    ∀ source, e.source? = some source → source.source? = none := by
  intro source hsource
  cases h with
  | unknown about failed =>
    rw [ServiceError.source?_ofFault] at hsource
    cases hsource
  | refused about told veto => cases hsource
  | failed about failed =>
    obtain rfl := Option.some.inj hsource
    exact ServiceError.source?_ofFault _

section Reported

variable {guard : Guard} {reference : String} {first info : InspectRecord} {newId : String}
  {exchange : Exchange} {e : ServiceError}

theorem Reported.of_needed {stage : UpdateStage} (about : exchange.request.stage? = some stage)
    (h : needed (stripSlash (info.name.getD "")) stage exchange = some e) :
    Reported guard reference first info exchange e := by
  obtain ⟨fault, hfault, rfl⟩ := Option.map_eq_some_iff.mp h
  exact .failed about hfault

/-- **The verdicts of a plan are the errors of an update.** -/
theorem Reported.of_verdict {call : Call} (mem : call ∈ plan guard reference first info newId)
    (about : exchange.request = call.request) (verdict : call.verdict exchange = some e) :
    Reported guard reference first info exchange e := by
  rw [plan_eq] at mem
  simp only [joining, List.cons_append, List.nil_append, List.mem_cons, List.mem_append,
    List.mem_map, List.not_mem_nil, or_false] at mem
  rcases mem with rfl | rfl | rfl | rfl | rfl | rfl | ⟨network, -, rfl⟩ | rfl
  · obtain ⟨fault, hfault, rfl⟩ := Option.map_eq_some_iff.mp verdict
    exact .unknown about hfault
  · simp only [Call.lookAgain, unprotected] at verdict
    split at verdict
    · rename_i fault hfault
      cases verdict
      exact .unknown about hfault
    · rename_i htold
      split at verdict
      · rename_i hveto
        cases verdict
        exact .refused about htold hveto
      · cases verdict
  · exact .of_needed (congrArg Request.stage? about) verdict
  · -- of the failures to stop, those that matter are wrapped as they are
    obtain ⟨e', he', rfl⟩ := Option.map_eq_some_iff.mp verdict
    obtain ⟨fault, hfault, hgrave⟩ := Option.bind_eq_some_iff.mp he'
    obtain rfl := grave?_eq_some hgrave
    exact .failed (congrArg Request.stage? about) hfault
  · exact .of_needed (congrArg Request.stage? about) verdict
  · exact .of_needed (congrArg Request.stage? about) verdict
  · cases verdict
  · exact .of_needed (congrArg Request.stage? about) verdict

end Reported

/-! ### Networks -/

/-- The networks to connect a replacement to come in the order of their names. -/
theorem pairwise_reconnect (info : InspectRecord) :
    ((Snapshot.capture info).reconnect.map (·.network)).Pairwise (· ≤ ·) := by
  have hsorted := Snapshot.pairwise_networksOf info
  rw [List.pairwise_map, Snapshot.reconnect]
  split
  · exact hsorted.filter _
  · exact hsorted

/-- The networks to connect a replacement to are those of the container, each once, without the
default network if there are others. -/
theorem perm_reconnect (info : InspectRecord) :
    (Snapshot.capture info).reconnect.Perm
      (if 1 < (info.networks.getD []).length then
        (info.networks.getD []).filter (·.network ≠ defaultNetwork)
      else info.networks.getD []) := by
  have hperm : (Snapshot.capture info).networks.Perm (info.networks.getD []) :=
    Snapshot.networksOf_perm info
  rw [← hperm.length_eq, Snapshot.reconnect]
  split
  · exact hperm.filter _
  · exact hperm

end Lifecycle

end Dockmaster
