import Dockmaster.Proofs.Operation.Ending

/-!
# Operations carried out alone

`Operation.run` takes an operation from phase to phase against one daemon until it has an outcome.
What every phase hands on to the next is known of the last one, and so of the outcome
(`run_induction`).

An operation that stops, restarts or updates a container decides once whether it is refused, after
its second inspection. Whatever it does later ends with another error or with none, so it is refused
exactly if both inspections succeed and the guard protects what they tell of
(`refused_run_iff`).
-/

namespace Dockmaster

namespace Lifecycle

/-- A phase that comes after the decision whether the container is protected. -/
def Phase.IsDecided : Phase → Prop
  | .resolving | .queueing _ | .rechecking _ => False
  | _ => True

theorem isDecided_reconnecting (target : Target) (newId : String) (left : List Attachment) :
    (reconnecting target newId left).IsDecided := by
  cases left <;> trivial

/-- The decision is made once. -/
theorem Leads.isDecided {guard : Guard} {action : Action} {reference : String} {answers : Answers}
    {phase next : Phase} (h : Leads guard action reference answers phase next)
    (decided : phase.IsDecided) : next.IsDecided := by
  cases h with
  | resolved told => exact decided.elim
  | locked fullId => exact decided.elim
  | spared told spared => exact decided.elim
  | created created => exact isDecided_reconnecting ..
  | connected target newId network left => exact isDecided_reconnecting ..
  | _ => trivial

theorem isDecided_firstPhase (action : Action) (fullId : String) (info : InspectRecord) :
    (firstPhase action fullId info).IsDecided := by
  cases action <;> trivial

/-- Nothing is refused after the decision. -/
theorem Ends.not_blacklisted {guard : Guard} {reference : String} {answers : Answers}
    {phase : Phase} {e : ServiceError} (h : Ends guard reference answers phase (.error e))
    (decided : phase.IsDecided) : e.isBlacklisted = false := by
  have hlast {answer : Except DaemonFault Unit} (h : lastWord answer = .error e) :
      e.isBlacklisted = false := by
    unfold lastWord at h
    split at h
    · cases h
    · cases h
      exact ServiceError.isBlacklisted_ofFault _
  generalize hresult : (.error e : Result) = result at h
  cases h with
  | unknown failed => exact decided.elim
  | vanished failed => exact decided.elim
  | refused told veto => exact decided.elim
  | stopped fullId => exact hlast hresult.symm
  | restarted fullId => exact hlast hresult.symm
  | started started => cases hresult
  | _ =>
    cases hresult
    simp

end Lifecycle

namespace Operation

/-- Whether an operation was refused because its container is protected. -/
def IsRefusal (outcome : Outcome) : Prop := ∃ e, outcome = .error e ∧ e.isBlacklisted = true

section Run

variable {σ : Type} {guard : Guard} {server : Server σ} {s : σ} {op : Operation}

theorem run_of_running {next : Operation}
    (h : op.resume guard (server.answers s) = .running next) :
    run guard server s op = run guard server (server.after s op) next := by
  rw [run]
  split
  · rename_i next' hnext
    cases h.symm.trans hnext
    rfl
  · rename_i outcome houtcome
    cases h.symm.trans houtcome

theorem run_of_finished {outcome : Outcome}
    (h : op.resume guard (server.answers s) = .finished outcome) :
    run guard server s op = (server.after s op, outcome) := by
  rw [run]
  split
  · rename_i next hnext
    cases h.symm.trans hnext
  · rename_i outcome' houtcome
    cases h.symm.trans houtcome
    rfl

/-- **What every phase hands on decides the outcome.** -/
theorem run_induction {P : σ → Operation → Prop} {Q : Outcome → Prop}
    (keeps : ∀ s op next, P s op → op.resume guard (server.answers s) = .running next →
      P (server.after s op) next)
    (ends : ∀ s op outcome, P s op → op.resume guard (server.answers s) = .finished outcome →
      Q outcome) (h : P s op) : Q (run guard server s op).2 := by
  induction s, op using run.induct guard server with
  | case1 s op next hnext ih =>
    rw [run_of_running hnext]
    exact ih (keeps s op next h hnext)
  | case2 s op outcome houtcome =>
    rw [run_of_finished houtcome]
    exact ends s op outcome h houtcome

end Run

/-! ### Refusals -/

section Refusal

open Lifecycle

variable {σ : Type} {guard : Guard} {server : Server σ} {action : Action} {reference : String}

/-- An operation on one container ends as its phase does. -/
theorem ends_of_manage {answers : Answers} {phase : Phase} {outcome : Outcome}
    (h : (manage action reference phase).resume guard answers = .finished outcome) :
    ∃ result, outcome = result.map valueOfId ∧ Ends guard reference answers phase result := by
  simp only [resume, Progress.map] at h
  split at h
  · cases h
  · rename_i result hresult
    cases h
    exact ⟨result, rfl, ends_of_resume hresult⟩

/-- **Nothing is refused after the decision**, whatever the daemon does. -/
theorem not_refused_of_isDecided (s : σ) {phase : Phase} (decided : phase.IsDecided) :
    ¬ IsRefusal (run guard server s (.manage action reference phase)).2 := by
  refine @run_induction σ guard server s _
    (fun _ op => ∃ phase, op = .manage action reference phase ∧ phase.IsDecided)
    (fun outcome => ¬ IsRefusal outcome) ?_ ?_ ⟨phase, rfl, decided⟩
  · rintro s _ next ⟨phase, rfl, decided⟩ hnext
    obtain ⟨next, rfl, hleads⟩ := leads_of_manage hnext
    exact ⟨next, rfl, hleads.isDecided decided⟩
  · rintro s _ outcome ⟨phase, rfl, decided⟩ houtcome ⟨e, he, hrefused⟩
    obtain ⟨result, rfl, hends⟩ := ends_of_manage houtcome
    cases result with
    | ok value => cases he
    | error e' =>
      cases he
      rw [hends.not_blacklisted decided] at hrefused
      cases hrefused

/-- A failed inspection is no refusal. -/
theorem not_refused_ofFault (fault : DaemonFault) : ¬ IsRefusal (.error (.ofFault fault)) := by
  rintro ⟨e, he, hrefused⟩
  cases he
  rw [ServiceError.isBlacklisted_ofFault] at hrefused
  cases hrefused

/-- What the second inspection tells decides. -/
theorem refused_rechecking_iff (s : σ) (fullId : String) :
    IsRefusal (run guard server s (.manage action reference (.rechecking fullId))).2 ↔
      ∃ info, (server s (.inspect fullId)).2 = .ok info ∧
        vetoed guard reference fullId info = true := by
  have hresume : (manage action reference (.rechecking fullId)).resume guard (server.answers s) =
      (Lifecycle.resume guard action reference (server.answers s) (.rechecking fullId)).map
        (.manage action reference) (·.map valueOfId) := rfl
  simp only [Lifecycle.resume, Server.answers] at hresume
  cases hinfo : (server s (.inspect fullId)).2 with
  | error fault =>
    rw [hinfo] at hresume
    rw [run_of_finished hresume]
    constructor
    · exact fun hrefused => (not_refused_ofFault fault hrefused).elim
    · rintro ⟨info, ⟨⟩, -⟩
  | ok info =>
    rw [hinfo] at hresume
    dsimp only at hresume
    cases hveto : vetoed guard reference fullId info with
    | true =>
      rw [hveto, if_pos rfl] at hresume
      rw [run_of_finished hresume]
      exact ⟨fun _ => ⟨info, rfl, hveto⟩, fun _ => ⟨_, rfl, rfl⟩⟩
    | false =>
      rw [hveto, if_neg Bool.false_ne_true] at hresume
      rw [run_of_running hresume]
      constructor
      · intro hrefused
        exact (not_refused_of_isDecided _ (isDecided_firstPhase action fullId info) hrefused).elim
      · rintro ⟨_, ⟨⟩, hveto'⟩
        cases hveto.symm.trans hveto'

/-- **When an operation is refused.** Both its inspections succeed, and the guard protects what the
second one tells of. -/
theorem refused_run_iff (s : σ) :
    IsRefusal (run guard server s (.manage action reference .resolving)).2 ↔
      ∃ first info, (server s (.inspect reference)).2 = .ok first ∧
        (server (server s (.inspect reference)).1 (.inspect (first.id.getD reference))).2 =
          .ok info ∧
        vetoed guard reference (first.id.getD reference) info = true := by
  have hresume : (manage action reference .resolving).resume guard (server.answers s) =
      (Lifecycle.resume guard action reference (server.answers s) .resolving).map
        (.manage action reference) (·.map valueOfId) := rfl
  simp only [Lifecycle.resume, Server.answers] at hresume
  cases hfirst : (server s (.inspect reference)).2 with
  | error fault =>
    rw [hfirst] at hresume
    rw [run_of_finished hresume]
    constructor
    · exact fun hrefused => (not_refused_ofFault fault hrefused).elim
    · rintro ⟨first, info, ⟨⟩, -, -⟩
  | ok first =>
    rw [hfirst] at hresume
    -- nobody else is there to have the lock
    rw [run_of_running hresume, run_of_running rfl]
    refine (refused_rechecking_iff _ _).trans ?_
    constructor
    · rintro ⟨info, hinfo, hveto⟩
      exact ⟨first, info, rfl, hinfo, hveto⟩
    · rintro ⟨_, info, ⟨⟩, hinfo, hveto⟩
      exact ⟨info, hinfo, hveto⟩

end Refusal

end Operation

end Dockmaster
