import Dockmaster.Proofs.Engine.Protection
import Dockmaster.Proofs.Operation.Course

/-!
# What an update asks for, and what it returns

An update that is not cancelled follows its plan (`Lifecycle.plan`) in every legal run, whatever the
daemon answers and whatever else goes on (`update_follows_plan`): it asks for the calls of the plan
in turn, goes past a call exactly if the verdict on the answer lets it, and its result is decided by
the answer to its last call.
-/

namespace Dockmaster

namespace Lifecycle

theorem Story.exists_call? {guard : Guard} {reference : String} {heard : List Exchange}
    {phase : Phase} {request : Request} (story : Story guard .update reference heard phase)
    (asks : phase.request? reference = some request) (info : InspectRecord) :
    ∃ call, phase.call? guard reference info = some call ∧ call.request = request := by
  cases phase with
  | queueing fullId => cases asks
  | stopping fullId => cases story.1
  | restarting fullId => cases story.1
  | _ => exact ⟨_, rfl, Option.some.inj asks⟩

/-- An update that asks for nothing has passed the first call, and waits for its lock. -/
theorem Story.at_of_waits {guard : Guard} {reference : String} {heard : List Exchange}
    {phase : Phase} {first info : InspectRecord} {newId : String}
    (story : Story guard .update reference heard phase)
    (told : Told reference heard first info newId)
    (waits : phase.request? reference = none) :
    phase = .queueing (first.id.getD reference) ∧ ∃ call left,
      heard = [⟨.inspect reference, .ok first⟩] ∧
        At (plan guard reference first info newId) heard call left := by
  cases phase with
  | queueing fullId =>
    obtain ⟨first', rfl, rfl⟩ := story
    obtain rfl : first' = first := told.first_eq first' rfl
    exact ⟨rfl, _, _, rfl, [.lookUp reference], plan_eq .., .cons passes_lookUp .nil⟩
  | _ => cases waits

end Lifecycle

namespace Engine

open Lifecycle

section Update

variable {guard : Guard} {events : List Event} {n : Nat} {reference : String}
  {first info : InspectRecord} {newId : String}

theorem countP_create_le_one (legal : Legal events) {action : Action}
    (begun : .begin n (.manage action reference .resolving) ∈ events) :
    (((start guard).heard n events).map Exchange.request).countP (·.isCreate) ≤ 1 := by
  obtain ⟨phase, heard, story, ⟨hheard, -, -, -⟩ | hover⟩ := share_of_manage guard legal begun
  · have hone := story.creates.1
    rw [List.countP_append] at hone
    rw [hheard]
    exact (Nat.le_add_right _ _).trans hone
  · obtain ⟨request, answers, result, hasks, -, hheard, -, -, -⟩ := hover
    rw [hheard, List.map_append, List.map_singleton]
    have hone := story.creates.1
    rwa [hasks] at hone

/-- **The course of an update** that is not cancelled. -/
theorem course (legal : Legal events)
    (begun : .begin n (.manage .update reference .resolving) ∈ events)
    (uncancelled : .cancel n ∉ events)
    (told : Told reference ((start guard).heard n events) first info newId) :
    Course (plan guard reference first info newId) newId
      (((start guard).after events).find? n =
        some (.manage .update reference (.queueing (first.id.getD reference))))
      ((start guard).asked n events) ((start guard).heard n events)
      ((start guard).returned n events) := by
  obtain ⟨phase, heard, story, ⟨hheard, hasked, hreturned, hlive⟩ | hover⟩ :=
    share_of_manage guard legal begun
  · obtain hlive | ⟨-, hcancelled⟩ := hlive
    · rw [hheard] at told
      rw [hheard, hasked, hreturned, hlive]
      cases asks : phase.request? reference with
      | none =>
        obtain ⟨rfl, call, left, rfl, hat⟩ := story.at_of_waits told asks
        exact .waiting hat rfl
      | some request =>
        obtain ⟨call, hcall, rfl⟩ := story.exists_call? asks info
        obtain ⟨left, hat, -⟩ := story.position told hcall
        exact .asking hat
    · exact absurd hcancelled uncancelled
  · obtain ⟨request, answers, result, asks, hresult, hheard, hasked, hreturned, hfind⟩ := hover
    rw [hheard] at told
    rw [hheard, hasked, hreturned, hfind]
    obtain ⟨call, hcall, rfl⟩ := story.exists_call? asks info
    obtain ⟨left, hat, hlast⟩ := story.position told.of_append hcall
    -- the last answer may be the one that tells of the second record
    have hinfo (fullId : String) (hphase : phase = .rechecking fullId) (record : InspectRecord)
        (hrecord : answers (.inspect fullId) = .ok record) : record = info := by
      subst hphase
      obtain ⟨first', rfl, rfl⟩ := story
      obtain rfl : first' = first := told.of_append.first_eq first' rfl
      obtain rfl := Option.some.inj hcall
      refine told.info_eq record ?_
      rw [← hrecord]
      rfl
    rcases (ends_of_resume hresult).verdict hcall hinfo with
      ⟨e, rfl, hverdict⟩ | ⟨target, id, rfl, rfl, hverdict⟩
    · exact .failed hat rfl hverdict nofun
    · obtain ⟨rfl, rfl⟩ := hlast target id rfl
      exact .succeeded hat ⟨rfl, hverdict⟩

/-- **An update follows its plan.** It asks for the calls of its plan in turn, and for one at a
time; it goes past a call exactly if the verdict on the answer lets it. It returns the id of the
replacement exactly if it has heard that this was started, and otherwise the verdict on an answer,
which is the failure of an inspection as it is, or the veto of the guard, or the failure of a step
with one layer around it. The networks that it connects the replacement to are those of the
container, in the order of their names. -/
theorem update_follows_plan (legal : Legal events)
    (begun : .begin n (.manage .update reference .resolving) ∈ events)
    (uncancelled : .cancel n ∉ events) :
    ∃ first info newId, Told reference ((start guard).heard n events) first info newId ∧
      (start guard).asked n events <+:
        (plan guard reference first info newId).map Call.request ∧
      ((start guard).heard n events).map Exchange.request <+: (start guard).asked n events ∧
      ((start guard).asked n events).length ≤ ((start guard).heard n events).length + 1 ∧
      (∀ (i : Nat) (call : Call) (exchange : Exchange),
        (plan guard reference first info newId)[i]? = some call →
        ((start guard).heard n events)[i]? = some exchange →
          (call.verdict exchange = none ↔
            i + 1 < ((start guard).asked n events).length ∨
            (i = 0 ∧ ((start guard).after events).find? n =
              some (.manage .update reference (.queueing (first.id.getD reference)))) ∨
            (start guard).returned n events = [.ok (.id newId)])) ∧
      (∀ outcome, outcome ∈ (start guard).returned n events ↔
        (outcome = .ok (.id newId) ∧
          ⟨.start newId, .ok ()⟩ ∈ (start guard).heard n events) ∨
        ∃ (i : Nat) (call : Call) (exchange : Exchange) (e : ServiceError),
          (plan guard reference first info newId)[i]? = some call ∧
          ((start guard).heard n events)[i]? = some exchange ∧
          call.verdict exchange = some e ∧ outcome = .error e) ∧
      (∀ e, .error e ∈ (start guard).returned n events →
        ∃ exchange, ((start guard).heard n events).getLast? = some exchange ∧
          Reported guard reference first info exchange e ∧
          ∀ source, e.source? = some source → source.source? = none) ∧
      ((Snapshot.capture info).reconnect.map (·.network)).Pairwise (· ≤ ·) ∧
      (Snapshot.capture info).reconnect.Perm
        (if 1 < (info.networks.getD []).length then
          (info.networks.getD []).filter (·.network ≠ defaultNetwork)
        else info.networks.getD []) := by
  obtain ⟨first, info, newId, told⟩ := exists_told (countP_create_le_one legal begun)
  have hcourse := course legal begun uncancelled told
  obtain ⟨hheard, hone⟩ := hcourse.heard_isPrefix
  refine ⟨first, info, newId, told, hcourse.asked_isPrefix, hheard, hone, ?_, ?_, ?_,
    pairwise_reconnect info, perm_reconnect info⟩
  · intro i call exchange hcall hexchange
    exact hcourse.passes_iff hcall hexchange
  · intro outcome
    exact hcourse.mem_returned_iff
  · intro e he
    obtain ⟨exchange, hlast, hreported⟩ := hcourse.reported he
    exact ⟨exchange, hlast, hreported, hreported.source?⟩

end Update

/-- A daemon on which `web` is stopped already, and which has no room for new containers. -/
def crowded : Answers
  | .inspect _ => .ok (recordOf "4f1a" "web")
  | .pull _ => .ok ()
  | .stop _ _ => .error (.response 304 "")
  | .remove _ _ => .ok ()
  | _ => .error (.response 500 "no room")

/-- An update of `web` that goes on after the container was stopped already, and fails when the
replacement is to be created. -/
def crowdedUpdate : List Event :=
  .begin 0 (.update "web") :: List.replicate 6 (.answer 0 crowded)

theorem update_follows_plan_crowded :
    Legal crowdedUpdate ∧ .begin 0 (.manage .update "web" .resolving) ∈ crowdedUpdate ∧
      .cancel 0 ∉ crowdedUpdate ∧
      .error (.updateFailed "web" .create (.ofFault (.response 500 "no room"))) ∈
        (start ⟨[]⟩).returned 0 crowdedUpdate := by
  have hlegal : Legal crowdedUpdate := by
    refine ⟨fun n op hmem => ?_, by decide⟩
    obtain ⟨rfl, rfl⟩ : n = 0 ∧ op = .update "web" := by simpa [crowdedUpdate] using hmem
    rfl
  have hbegun : .begin 0 (.manage .update "web" .resolving) ∈ crowdedUpdate := List.mem_cons_self
  have huncancelled : .cancel 0 ∉ crowdedUpdate := by simp [crowdedUpdate]
  obtain ⟨first, info, newId, told, -, -, -, -, hreturned, -⟩ :=
    @update_follows_plan ⟨[]⟩ _ _ _ hlegal hbegun huncancelled
  obtain rfl := told.first_eq (recordOf "4f1a" "web") rfl
  obtain rfl := told.info_eq (recordOf "4f1a" "web") rfl
  -- the verdict on the sixth call is the result
  refine ⟨hlegal, hbegun, huncancelled, (hreturned _).mpr (.inr ⟨5, _, _, _, rfl, rfl, rfl, rfl⟩)⟩

end Engine

end Dockmaster
