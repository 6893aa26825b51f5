import Dockmaster.Proofs.Operation.Ending
import Dockmaster.Proofs.World.Residents

/-!
# What a failed update has done

An update that fails in a stage has been through all stages before it. `Lifecycle.Broken` lists what
it has heard since the inspections by then, for each stage, and `Lifecycle.Ends.broken` shows that
an update fails in no other way.

What the stage says of the old container can be read off the list: the update has removed it if and
only if the stage comes after the removal (`Broken.removed_iff`). So can what it says of the
replacement: before the last stage none was created (`Broken.created?_eq_none`), and in the last
one all that was done since its creation was to connect it (`Broken.acts_of_start`).
-/

namespace Dockmaster

namespace Lifecycle

/-- **What an update has heard since the inspections** when it fails in a stage. -/
inductive Broken (target : Target) : UpdateStage → List Exchange → Prop
  /-- The image cannot be pulled. -/
  | pull (fault : DaemonFault) : Broken target .pull [⟨.pull target.image, .error fault⟩]
  /-- The container cannot be stopped. -/
  | stop (fault : DaemonFault) :
      Broken target .stop
        [⟨.pull target.image, .ok ()⟩, ⟨.stop target.fullId updateStopGrace, .error fault⟩]
  /-- The container cannot be removed. -/
  | remove (stopped : Except DaemonFault Unit) (fault : DaemonFault) :
      Broken target .remove
        (haltedBy target stopped ++ [⟨.remove target.fullId true, .error fault⟩])
  /-- The replacement cannot be created. -/
  | create (stopped : Except DaemonFault Unit) (fault : DaemonFault) :
      Broken target .create (removedBy target stopped ++
        [⟨.create target.name (target.snapshot.createConfig target.image), .error fault⟩])
  /-- The replacement cannot be started. -/
  | start (stopped : Except DaemonFault Unit) (newId : String) {connects : List Exchange}
      (order : connects.map Exchange.request = target.snapshot.reconnect.map (connectTo newId))
      (fault : DaemonFault) :
      Broken target .start
        (createdBy target stopped newId ++ connects ++ [⟨.start newId, .error fault⟩])

section Ending

variable {guard : Guard} {reference : String} {answers : Answers} {phase : Phase}
  {heard : List Exchange} {request : Request}

/-- **An update fails in a stage** only as `Broken` says. -/
theorem Ends.broken {container : String} {stage : UpdateStage} {source : ServiceError}
    (ends : Ends guard reference answers phase (.error (.updateFailed container stage source)))
    (story : Story guard .update reference heard phase)
    (asks : phase.request? reference = some request) :
    ∃ target rest, target.name = container ∧ Broken target stage rest ∧
      Replaces guard .update reference target rest (heard ++ [⟨request, answers request⟩]) := by
  generalize hresult : (.error (.updateFailed container stage source) : Result) = result at ends
  -- the failure of an inspection is not wrapped
  have hplain {fault : DaemonFault}
      (h : (.error (.updateFailed container stage source) : Result) = .error (.ofFault fault)) :
      False := by
    have hsource := ServiceError.source?_ofFault fault
    rw [← Except.error.inj h] at hsource
    cases hsource
  cases ends with
  | unknown failed => exact (hplain hresult).elim
  | vanished failed => exact (hplain hresult).elim
  | refused told veto => cases hresult
  | stopped fullId =>
    obtain ⟨haction, -⟩ := story
    cases haction
  | restarted fullId =>
    obtain ⟨haction, -⟩ := story
    cases haction
  | @unpulled target fault failed =>
    cases hresult
    cases asks
    exact ⟨target, _, rfl, .pull fault, Replaces.snoc story failed⟩
  | @unhalted target fault failed grave =>
    cases hresult
    cases asks
    exact ⟨target, _, rfl, .stop fault, Replaces.snoc story failed⟩
  | @unremoved target fault failed =>
    cases hresult
    cases asks
    obtain ⟨stopped, -, hreplaces⟩ := story
    exact ⟨target, _, rfl, .remove stopped fault, hreplaces.snoc failed⟩
  | @uncreated target fault failed =>
    cases hresult
    cases asks
    obtain ⟨stopped, -, hreplaces⟩ := story
    exact ⟨target, _, rfl, .create stopped fault, hreplaces.snoc failed⟩
  | @unstarted target newId fault failed =>
    cases hresult
    cases asks
    obtain ⟨stopped, connects, -, horder, hreplaces⟩ := story
    exact ⟨target, _, rfl, .start stopped newId horder fault, hreplaces.snoc failed⟩
  | started started => cases hresult

/-- **An update that fails outside of any stage** has only looked its container up. -/
theorem Ends.looks {e : ServiceError} (ends : Ends guard reference answers phase (.error e))
    (plain : e.source? = none) (story : Story guard .update reference heard phase)
    (asks : phase.request? reference = some request) :
    ∀ exchange ∈ heard ++ [⟨request, answers request⟩], exchange.request.looks = true := by
  generalize hresult : (.error e : Result) = result at ends
  cases ends with
  | unknown failed =>
    cases asks
    obtain rfl : heard = [] := story
    simp [Request.looks]
  | vanished failed =>
    cases asks
    obtain ⟨first, -, rfl⟩ := story
    simp [Request.looks]
  | refused told veto =>
    cases asks
    obtain ⟨first, -, rfl⟩ := story
    simp [Request.looks]
  | stopped fullId =>
    obtain ⟨haction, -⟩ := story
    cases haction
  | restarted fullId =>
    obtain ⟨haction, -⟩ := story
    cases haction
  | started started => cases hresult
  | _ =>
    -- the failure of a stage is wrapped
    cases hresult
    cases plain

end Ending

section Broken

variable {target : Target} {stage : UpdateStage} {heard : List Exchange}

/-- **The stage tells whether the container was removed.** -/
theorem Broken.removed_iff (h : Broken target stage heard) :
    (∃ exchange ∈ heard, exchange.removed? = some target.fullId) ↔ stage.isPastRemoval = true := by
  have hremoved (stopped : Except DaemonFault Unit) :
      (⟨.remove target.fullId true, .ok ()⟩ : Exchange) ∈ removedBy target stopped :=
    List.mem_append_right _ (List.mem_singleton_self _)
  cases h with
  | pull fault => simp [Exchange.removed?, UpdateStage.isPastRemoval]
  | stop fault => simp [Exchange.removed?, UpdateStage.isPastRemoval]
  | remove stopped fault => simp [haltedBy, Exchange.removed?, UpdateStage.isPastRemoval]
  | create stopped fault =>
    exact iff_of_true ⟨_, List.mem_append_left _ (hremoved stopped), rfl⟩ rfl
  | start stopped newId order fault =>
    have hcreated := List.mem_append_left
      [⟨.create target.name (target.snapshot.createConfig target.image), .ok newId⟩]
      (hremoved stopped)
    exact iff_of_true ⟨_, List.mem_append_left _ (List.mem_append_left _ hcreated), rfl⟩ rfl

theorem Broken.fault?_of_pull (h : Broken target .pull heard) :
    ∀ exchange ∈ heard, exchange.fault? ≠ none := by
  cases h with
  | pull fault => simp [Exchange.fault?]

/-- **An update that fails before it starts a replacement** has created none. -/
theorem Broken.created?_eq_none (h : Broken target stage heard) (early : stage ≠ .start) :
    ∀ exchange ∈ heard, exchange.created? = none := by
  cases h with
  | pull fault => simp [Exchange.created?]
  | stop fault => simp [Exchange.created?]
  | remove stopped fault => simp [haltedBy, Exchange.created?]
  | create stopped fault => simp [removedBy, haltedBy, Exchange.created?]
  | start => exact absurd rfl early

/-- **An update that cannot start its replacement** has created it, and has changed nothing but the
old container and the networks of the replacement. -/
theorem Broken.acts_of_start (h : Broken target .start heard) :
    ∃ newId config, ⟨.create target.name config, .ok newId⟩ ∈ heard ∧
      ∀ exchange ∈ heard, exchange.fault? = none → ∀ reference,
        exchange.request.changes? = some reference → reference = target.fullId ∨
          ∃ network aliases, exchange.request = .connect network reference aliases := by
  cases h with
  | @start stopped newId connects order fault =>
    have hcreated : ⟨.create target.name (target.snapshot.createConfig target.image), .ok newId⟩ ∈
        createdBy target stopped newId := List.mem_append_right _ (List.mem_singleton_self _)
    refine ⟨newId, _, List.mem_append_left _ (List.mem_append_left _ hcreated), ?_⟩
    intro exchange hmem done reference changes
    rcases List.mem_append.mp hmem with hmem | hlast
    · rcases List.mem_append.mp hmem with hmem | hconnects
      · -- until the replacement was created, only the old container was changed
        left
        simp only [createdBy, removedBy, haltedBy, List.cons_append, List.nil_append,
          List.mem_cons, List.not_mem_nil, or_false] at hmem
        rcases hmem with rfl | rfl | rfl | rfl <;> cases changes <;> rfl
      · right
        have hrequest := List.mem_map_of_mem (f := Exchange.request) hconnects
        rw [order] at hrequest
        obtain ⟨network, -, hnetwork⟩ := List.mem_map.mp hrequest
        rw [← hnetwork] at changes ⊢
        cases changes
        exact ⟨_, _, rfl⟩
    · -- the start is what failed
      obtain rfl := List.mem_singleton.mp hlast
      cases done

end Broken

end Lifecycle

end Dockmaster
