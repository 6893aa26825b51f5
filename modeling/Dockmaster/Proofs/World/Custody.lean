import Dockmaster.Proofs.Operation.Ending
import Dockmaster.Proofs.World.Ownership

/-!
# Locks while the daemon works

A request that is on its way belongs to an operation that is under way, unless this was cancelled
(`live_of_flight`), so a request to stop, restart or remove a container is served under the lock of
the container (`owner?_of_flight`). An operation that returns was under way all the time until then
(`live_until_returned`), so it has the lock from its second inspection on
(`owner?_until_returned`). When it returns, it has heard all that it was served
(`ended_of_returned`).
-/

namespace Dockmaster

namespace Engine

theorem live_of_returned {engine : Engine} {n : Nat} {event : Event} {outcome : Outcome}
    (h : outcome ∈ engine.returned n [event]) : ∃ op, engine.find? n = some op := by
  cases hlive : engine.find? n with
  | some op => exact ⟨op, rfl⟩
  | none =>
    by_cases hbegun : event.begun? = some n
    · -- to begin is not to return
      cases event with
      | begin k op =>
        rw [returned_singleton] at h
        unfold step at h
        dsimp only at h
        rw [returned?_issue] at h
        cases h
      | _ => cases hbegun
    · rw [(share_of_not_live hlive hbegun).2.2.2] at h
      cases h

theorem live_of_unheard {guard : Guard} {events : List Event} (legal : Legal events) {n : Nat}
    (uncancelled : .cancel n ∉ events)
    (unheard : ((start guard).heard n events).length < ((start guard).asked n events).length) :
    ∃ op, ((start guard).after events).find? n = some op := by
  obtain ⟨first, hbegun⟩ : Begins events n := begins_of_asked guard fun hnil => by
    rw [hnil] at unheard
    exact absurd unheard (Nat.not_lt_zero _)
  have hstanding := standing guard legal hbegun
  generalize ((start guard).after events).find? n = live, (start guard).asked n events = asked,
    (start guard).heard n events = heard, (start guard).returned n events = returned
    at hstanding unheard
  cases hstanding with
  | running path => exact ⟨_, rfl⟩
  | dropped why path => exact absurd why uncancelled
  | ended answers path asks ends => simp at unheard

end Engine

namespace World

variable {σ : Type}

theorem served_singleton_cases (server : Operation.Server σ) (w : World σ) (n : Nat)
    (event : Event) :
    w.served server n [event] = [] ∨
      ∃ service, w.service? server event = some service ∧ service.number = n ∧
        w.served server n [event] = [service.exchange] := by
  rw [served_singleton]
  cases w.service? server event with
  | none => exact .inl rfl
  | some service =>
    by_cases hnumber : service.number = n
    · exact .inr ⟨service, rfl, hnumber, by simp [hnumber]⟩
    · exact .inl (by simp [hnumber])

/-- What an operation is served it is served at some moment, after what it was served before. -/
theorem exists_moment_of_served {server : Operation.Server σ} {w : World σ} {n : Nat}
    {events : List Event} {done rest : List Exchange} {exchange : Exchange}
    (h : w.served server n events = done ++ exchange :: rest) :
    ∃ past event future service, events = past ++ event :: future ∧
      w.served server n past = done ∧
      (w.after server past).service? server event = some service ∧ service.number = n ∧
      service.exchange = exchange := by
  induction events generalizing w done with
  | nil => cases done <;> cases h
  | cons event later ih =>
    have hcons (more : List Event) : w.served server n (event :: more) =
        w.served server n [event] ++ (w.step server event).served server n more :=
      served_append server w [event] more n
    rw [hcons] at h
    rcases served_singleton_cases server w n event with hnil | ⟨service, hservice, hnumber, hone⟩
    · rw [hnil, List.nil_append] at h
      obtain ⟨past, last, future, other, rfl, rfl, hmoment⟩ := ih h
      exact ⟨event :: past, last, future, other, rfl, by rw [hcons, hnil]; rfl, hmoment⟩
    · rw [hone] at h
      cases done with
      | nil => exact ⟨[], event, later, service, rfl, rfl, hservice, hnumber, (List.cons.inj h).1⟩
      | cons first done =>
        obtain ⟨hfirst, hdone⟩ := List.cons.inj h
        obtain ⟨past, last, future, other, rfl, rfl, hmoment⟩ := ih hdone
        exact ⟨event :: past, last, future, other, rfl, by rw [hcons, hone, hfirst]; rfl, hmoment⟩

section Run

variable {server : Operation.Server σ} {guard : Guard} {daemon : σ}
  {events past future : List Event} {n : Nat}

/-- **A request on its way** belongs to an operation under way that was not cancelled. -/
theorem live_of_flight (legal : (start guard daemon).Legal server events) {request : Request}
    (flight : ((start guard daemon).after server events).flights n = some ⟨request, none⟩)
    (uncancelled : .cancel n ∉ events) :
    ∃ op, ((start guard daemon).after server events).engine.find? n = some op := by
  have hcoherent := coherent_after server guard daemon legal n
  have hserved := hcoherent.prefix_served.length_le
  have hasked : ((start guard daemon).asked server n events).length =
      ((start guard daemon).served server n events).length + 1 := by
    rw [hcoherent.asked_of_flight flight, List.length_append, List.length_map]
    rfl
  rw [engine_after]
  refine Engine.live_of_unheard legal (fun h => uncancelled (cancel_mem_engineEvents.mp h)) ?_
  exact Nat.lt_of_le_of_lt hserved (hasked ▸ Nat.lt_succ_self _)

/-- **A request to stop, restart or remove a container is served under the lock of the container**,
and its operation heard the id of the container before. -/
theorem owner?_of_flight (legal : (start guard daemon).Legal server events) {request : Request}
    (flight : ((start guard daemon).after server events).flights n = some ⟨request, none⟩)
    (uncancelled : .cancel n ∉ events) {id : String} (target : request.target? = some id) :
    ∃ reference first, first.id.getD reference = id ∧
      ⟨.inspect reference, .ok first⟩ ∈ (start guard daemon).served server n events ∧
      ((start guard daemon).after server events).engine.locks.owner? id = some n := by
  have hcoherent := coherent_after server guard daemon legal n
  have hasked : request ∈ (start guard daemon).asked server n events := by
    rw [hcoherent.asked_of_flight flight]
    exact List.mem_append_right _ (List.mem_singleton_self _)
  obtain ⟨reference, first, rest, hheard, hid, howner⟩ := heard_of_target? legal hasked target
  obtain ⟨op, hlive⟩ := live_of_flight legal flight uncancelled
  refine ⟨reference, first, hid, hcoherent.prefix_served.subset ?_, howner (by rw [hlive]; rfl)⟩
  rw [hheard]
  exact List.mem_cons_self

/-! ### Until an operation returns -/

/-- **Whoever returns was under way all the time**, from any moment by which it had asked for
something. -/
theorem live_until_returned (legal : (start guard daemon).Legal server (past ++ future))
    {last : Event} {outcome : Outcome}
    (returns : outcome ∈ ((start guard daemon).after server (past ++ future)).returned server n
      [last])
    (asked : (start guard daemon).asked server n past ≠ []) :
    ∃ op, ((start guard daemon).after server past).engine.find? n = some op := by
  obtain ⟨op, hop⟩ : ∃ op,
      ((start guard daemon).after server (past ++ future)).engine.find? n = some op := by
    unfold returned at returns
    rw [engineEvents_singleton] at returns
    cases hevent : ((start guard daemon).after server (past ++ future)).engineEvent? last with
    | none =>
      rw [hevent] at returns
      cases returns
    | some event =>
      rw [hevent] at returns
      exact Engine.live_of_returned returns
  cases hlive : ((start guard daemon).after server past).engine.find? n with
  | some op => exact ⟨op, rfl⟩
  | none =>
    -- whoever is over stays over
    have hbegins := Engine.begins_of_asked guard asked
    unfold World.Legal at legal
    rw [engine_after] at hlive hop
    rw [engineEvents_append] at legal hop
    have hover := Engine.find?_eq_none_of_over guard legal hbegins hlive
    rw [show (start guard daemon).engine = Engine.start guard from rfl, hover] at hop
    cases hop

theorem begun_of_asked (legal : (start guard daemon).Legal server (past ++ future))
    {op : Operation} (begun : .begin n op ∈ past ++ future)
    (asked : (start guard daemon).asked server n past ≠ []) : .begin n op ∈ past := by
  have hbegun : .begin n op ∈ (start guard daemon).engineEvents server (past ++ future) :=
    begin_mem_engineEvents.mpr begun
  unfold World.Legal at legal
  rw [engineEvents_append] at legal hbegun
  exact begin_mem_engineEvents.mp
    (legal.begun_before hbegun (Engine.begins_of_asked guard asked))

/-- **The lock from the second inspection on.** An operation that was served its first inspection
and has made its second one has the lock of the id that it heard until it returns. -/
theorem owner?_until_returned {more : List Event}
    (legal : (start guard daemon).Legal server (past ++ (future ++ more)))
    {action : Lifecycle.Action} {reference : String} {first : InspectRecord} {request : Request}
    (begun : .begin n (.manage action reference .resolving) ∈ past ++ (future ++ more))
    (served : (start guard daemon).served server n past = [⟨.inspect reference, .ok first⟩])
    (flight : ((start guard daemon).after server past).flights n = some ⟨request, none⟩)
    {last : Event} {outcome : Outcome}
    (returns : outcome ∈ ((start guard daemon).after server (past ++ (future ++ more))).returned
      server n [last]) :
    ((start guard daemon).after server (past ++ future)).engine.locks.owner?
      (first.id.getD reference) = some n := by
  have hcoherent := coherent_after server guard daemon legal.of_append n
  have hasked := hcoherent.asked_of_flight flight
  have hpast : (start guard daemon).asked server n past ≠ [] := by
    rw [hasked]
    simp
  have htwo : 2 ≤ ((start guard daemon).asked server n (past ++ future)).length := by
    rw [asked_append, hasked, served]
    simp
  -- the operation is under way, so it has heard all that was served before
  obtain ⟨before, hthen⟩ := live_until_returned legal returns hpast
  have hheard : (start guard daemon).heard server n past = [⟨.inspect reference, .ok first⟩] := by
    obtain ⟨delivered, hsent, -, hlive⟩ := hcoherent.sent
    rw [(hlive _ hthen).1, ← served]
    rw [flight] at hsent
    generalize (start guard daemon).served server n past = exchanges,
      (start guard daemon).asked server n past = requests at hsent
    cases hsent with
    | made => rfl
  have hall : (start guard daemon).heard server n (past ++ future) =
      ⟨.inspect reference, .ok first⟩ ::
        ((start guard daemon).after server past).heard server n future := by
    rw [heard_append, hheard]
    rfl
  rw [← List.append_assoc] at legal begun returns
  have hlater : (start guard daemon).asked server n (past ++ future) ≠ [] := by
    rw [asked_append]
    exact List.append_ne_nil_of_left_ne_nil hpast _
  obtain ⟨op, hnow⟩ := live_until_returned legal returns hlater
  have hbegun : .begin n (.manage action reference .resolving) ∈
      (start guard daemon).engineEvents server (past ++ future) :=
    begin_mem_engineEvents.mpr (begun_of_asked legal begun hlater)
  have hlegal := legal.of_append
  rw [engine_after] at hnow ⊢
  have hheld := Engine.heldLock?_of_asked hlegal hbegun hall htwo hnow
  exact (Engine.sound_after guard hlegal).owner?_of_held hnow hheld

/-! ### When an operation returns -/

/-- **How an operation on one container returns**: from a phase that its last answer ends. By then
it has heard all that it was served. -/
theorem ended_of_returned {last : Event}
    (legal : (start guard daemon).Legal server (past ++ [last])) {action : Lifecycle.Action}
    {reference : String} (begun : .begin n (.manage action reference .resolving) ∈ past ++ [last])
    {e : ServiceError}
    (returns : .error e ∈ ((start guard daemon).after server past).returned server n [last]) :
    ∃ phase heard request answers, Lifecycle.Story guard action reference heard phase ∧
      phase.request? reference = some request ∧
      Lifecycle.Ends guard reference answers phase (.error e) ∧
      (start guard daemon).heard server n (past ++ [last]) =
        heard ++ [⟨request, answers request⟩] ∧
      (start guard daemon).served server n (past ++ [last]) =
        (start guard daemon).heard server n (past ++ [last]) := by
  have hreturned : .error e ∈ (start guard daemon).returned server n (past ++ [last]) := by
    rw [returned_append]
    exact List.mem_append_right _ returns
  have hbegun : .begin n (.manage action reference .resolving) ∈
      (start guard daemon).engineEvents server (past ++ [last]) := begin_mem_engineEvents.mpr begun
  obtain ⟨phase, heard, story, ⟨-, -, hnone, -⟩ | hover⟩ :=
    Engine.share_of_manage guard legal hbegun
  · have hnil : (start guard daemon).returned server n (past ++ [last]) = [] := hnone
    rw [hnil] at hreturned
    cases hreturned
  · obtain ⟨request, answers, result, hasks, hresult, hheard, hasked, houtcome, -⟩ := hover
    replace hheard : (start guard daemon).heard server n (past ++ [last]) = _ := hheard
    replace hasked : (start guard daemon).asked server n (past ++ [last]) = _ := hasked
    replace houtcome : (start guard daemon).returned server n (past ++ [last]) = _ := houtcome
    rw [houtcome, List.mem_singleton] at hreturned
    obtain rfl : result = .error e := by
      cases result with
      | ok value => cases hreturned
      | error e' => rw [Except.error.inj hreturned]
    refine ⟨phase, heard, request, answers, story, hasks, Lifecycle.ends_of_resume hresult, hheard,
      ?_⟩
    -- nothing that was asked for is left to be heard
    have hcoherent := coherent_after server guard daemon legal n
    have hlength := hcoherent.prefix_asked.length_le
    refine (hcoherent.prefix_served.eq_of_length_le ?_).symm
    rw [List.length_map, hasked] at hlength
    rw [hheard]
    simpa using hlength

end Run

end World

end Dockmaster
