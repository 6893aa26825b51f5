import Dockmaster.Proofs.Engine.Protection

/-!
# Critical sections

The critical section of an operation on a container begins when the operation asks for its second
inspection and lasts until the operation is over. Critical sections of one container never overlap
(`exclusion`): the operation holds the lock all the time, and another one would have to hold it,
too.
-/

namespace Dockmaster.Engine

open Lifecycle

section Run

variable {guard : Guard} {n k : Nat} {action action' : Action} {reference reference' : String}

/-- Of two operations that know their container by the same id, only one is under way with more than
its first inspection asked for. -/
theorem eq_of_both_inside {events : List Event} (legal : Legal events)
    (begun : .begin n (.manage action reference .resolving) ∈ events)
    (begun' : .begin k (.manage action' reference' .resolving) ∈ events)
    {first first' : InspectRecord} {rest rest' : List Exchange}
    (heard : (start guard).heard n events = ⟨.inspect reference, .ok first⟩ :: rest)
    (heard' : (start guard).heard k events = ⟨.inspect reference', .ok first'⟩ :: rest')
    (same : first.id.getD reference = first'.id.getD reference')
    (inside : 2 ≤ ((start guard).asked n events).length)
    (inside' : 2 ≤ ((start guard).asked k events).length) {op op' : Operation}
    (live : ((start guard).after events).find? n = some op)
    (live' : ((start guard).after events).find? k = some op') : n = k := by
  have hheld := heldLock?_of_asked legal begun heard inside live
  have hheld' := heldLock?_of_asked legal begun' heard' inside' live'
  rw [← same] at hheld'
  exact (sound_after guard legal).eq_of_held live live' hheld hheld'

/-- **Exclusion.** From the moment when an operation asks for its second inspection until it is
over, another one that knows its container by the same id asks for nothing but its own first
inspection. If the records carry their ids, it is the same whatever the two were called with. -/
theorem exclusion {past between : List Event} {enter last : Event}
    (legal : Legal (past ++ enter :: between ++ [last])) (other : k ≠ n)
    (begun : .begin n (.manage action reference .resolving) ∈ past ++ enter :: between ++ [last])
    (begun' : .begin k (.manage action' reference' .resolving) ∈ past ++ enter :: between ++ [last])
    {first first' : InspectRecord} {rest rest' : List Exchange}
    (heard : (start guard).heard n (past ++ enter :: between ++ [last]) =
      ⟨.inspect reference, .ok first⟩ :: rest)
    (heard' : (start guard).heard k (past ++ enter :: between ++ [last]) =
      ⟨.inspect reference', .ok first'⟩ :: rest')
    (looked : (start guard).asked n past = [.inspect reference])
    (enters : ((start guard).after past).asked n [enter] = [.inspect (first.id.getD reference)])
    (underWay : (((start guard).after (past ++ enter :: between)).find? n).isSome) :
    (first.id.getD reference = first'.id.getD reference' →
      ∀ request ∈ ((start guard).after (past ++ enter :: between)).asked k [last],
        (start guard).asked k (past ++ enter :: between) = []) ∧
    (∀ id, first.id = some id → first'.id = some id →
      ∀ request ∈ ((start guard).after (past ++ enter :: between)).asked k [last],
        (start guard).asked k (past ++ enter :: between) = []) := by
  have hsame : first.id.getD reference = first'.id.getD reference' →
      ∀ request ∈ ((start guard).after (past ++ enter :: between)).asked k [last],
        (start guard).asked k (past ++ enter :: between) = [] := by
    intro same request asks
    by_contra hbefore
    have hinside : 2 ≤ ((start guard).asked n (past ++ enter :: between ++ [last])).length := by
      rw [asked_append, List.append_cons, asked_append, asked_append, looked, enters]
      simp
    have hinside' : 2 ≤ ((start guard).asked k (past ++ enter :: between ++ [last])).length := by
      have hpos := List.length_pos_of_ne_nil hbefore
      have hpos' := List.length_pos_of_mem asks
      rw [asked_append, List.length_append]
      omega
    obtain ⟨hnumber, op', live', -⟩ := live_of_asked asks
    rw [← after_singleton, ← after_append] at live'
    -- the event makes the other one ask, so the first one stays as it is
    obtain ⟨op, live⟩ := Option.isSome_iff_exists.mp underWay
    have hother : last.number ≠ n := fun h => other (hnumber.symm.trans h)
    rw [← (share_of_ne _ hother).1, ← after_singleton, ← after_append] at live
    exact other (eq_of_both_inside legal begun begun' heard heard' same hinside hinside' live
      live').symm
  refine ⟨hsame, ?_⟩
  intro id hid hid'
  apply hsame
  rw [hid, hid']
  rfl

end Run

/-- While `web` is about to be stopped, somebody waits to restart it, and looks in vain. -/
theorem exclusion_look :
    Legal [.begin 0 (.stop "web"), .begin 1 (.restart "4f"),
      .answer 0 (telling (recordOf "4f1a" "web")), .answer 1 (telling (recordOf "4f1a" "web")),
      .look 1] ∧
    ((start ⟨[]⟩).after [.begin 0 (.stop "web"), .begin 1 (.restart "4f"),
      .answer 0 (telling (recordOf "4f1a" "web")),
      .answer 1 (telling (recordOf "4f1a" "web"))]).asked 1 [.look 1] = [] := by
  let past : List Event := [.begin 0 (.stop "web"), .begin 1 (.restart "4f")]
  let enter : Event := .answer 0 (telling (recordOf "4f1a" "web"))
  let between : List Event := [.answer 1 (telling (recordOf "4f1a" "web"))]
  have hlegal : Legal (past ++ enter :: between ++ [.look 1]) := by
    refine ⟨fun n op hmem => ?_, by decide⟩
    obtain ⟨-, rfl⟩ | ⟨-, rfl⟩ : n = 0 ∧ op = .stop "web" ∨ n = 1 ∧ op = .restart "4f" := by
      simpa [past, enter, between] using hmem
    · rfl
    · rfl
  have hbegun : .begin 0 (.manage .stop "web" .resolving) ∈
      past ++ enter :: between ++ [.look 1] := List.mem_cons_self
  have hbegun' : .begin 1 (.manage .restart "4f" .resolving) ∈
      past ++ enter :: between ++ [.look 1] := List.mem_cons_of_mem _ List.mem_cons_self
  have hheard : (start ⟨[]⟩).heard 0 (past ++ enter :: between ++ [.look 1]) =
      [⟨.inspect "web", .ok (recordOf "4f1a" "web")⟩] := rfl
  have hheard' : (start ⟨[]⟩).heard 1 (past ++ enter :: between ++ [.look 1]) =
      [⟨.inspect "4f", .ok (recordOf "4f1a" "web")⟩] := rfl
  obtain ⟨hexclusion, -⟩ :=
    exclusion hlegal (by decide) hbegun hbegun' hheard hheard' rfl rfl rfl
  refine ⟨hlegal, List.eq_nil_iff_forall_not_mem.mpr fun request hrequest => ?_⟩
  cases hexclusion rfl request hrequest

end Dockmaster.Engine
