import Dockmaster.Proofs.Engine.Locking
import Dockmaster.Proofs.Guard
import Dockmaster.Proofs.Operation.Story

/-!
# Protected containers stay as they are

An operation that stops, restarts or updates a container does nothing to it before its second
inspection, made under the lock of the container, has found it unprotected, and it stops, restarts
and removes no other container (`protection`). This holds in every legal run, so it holds whatever
the daemon answers and whatever else goes on.
-/

namespace Dockmaster

/-- Whether a request only tells all about a container. -/
def Request.isInspect : Request → Bool
  | .inspect _ => true
  | _ => false

namespace Lifecycle

/-! ### The veto -/

/-- The texts by which a container may be protected: the reference of the caller, the full id, the
name without one leading slash, and the image. -/
def namesOf (reference fullId : String) (info : InspectRecord) : List String :=
  [reference, fullId, stripSlash (info.name.getD ""), (info.config.bind (·.image)).getD ""]

theorem vetoed_iff {guard : Guard} {reference fullId : String} {info : InspectRecord} :
    vetoed guard reference fullId info = true ↔
      ∃ text ∈ namesOf reference fullId info, text ∈ guard.entries := by
  unfold vetoed
  rw [Bool.or_eq_true, Guard.protects_iff, Guard.protects_iff]
  simp only [namesOf, InspectRecord.identity, Identity.ofDaemon, List.mem_cons, List.not_mem_nil,
    or_false, exists_eq_or_imp, exists_eq_left]
  tauto

theorem vetoed_eq_false_iff {guard : Guard} {reference fullId : String} {info : InspectRecord} :
    vetoed guard reference fullId info = false ↔
      ∀ text ∈ namesOf reference fullId info, text ∉ guard.entries := by
  rw [← Bool.not_eq_true, vetoed_iff]
  simp only [not_exists, not_and]

/-! ### What the stories say of requests and locks -/

/-- **What an operation may ask for** after what it has heard. -/
inductive Permitted (guard : Guard) (reference : String) : List Exchange → Request → Prop
  /-- It inspects its container to learn the full id. -/
  | lookUp : Permitted guard reference [] (.inspect reference)
  /-- It inspects its container by the full id. -/
  | lookAgain (first : InspectRecord) :
      Permitted guard reference [⟨.inspect reference, .ok first⟩]
        (.inspect (first.id.getD reference))
  /-- It acts on its container, and on no other, after the second inspection spared it. -/
  | act {first info : InspectRecord} {rest : List Exchange} {request : Request}
      (spared : ∀ text ∈ namesOf reference (first.id.getD reference) info, text ∉ guard.entries)
      (acts : request.isInspect = false)
      (aimed : ∀ target, request.target? = some target → target = first.id.getD reference) :
      Permitted guard reference
        (⟨.inspect reference, .ok first⟩ ::
          ⟨.inspect (first.id.getD reference), .ok info⟩ :: rest) request

section Story

variable {guard : Guard} {action : Action} {reference : String} {heard : List Exchange}
  {phase : Phase}

theorem Opened.permitted {fullId : String} {info : InspectRecord} {rest : List Exchange}
    {request : Request} (h : Opened guard reference fullId info rest heard)
    (acts : request.isInspect = false)
    (aimed : ∀ target, request.target? = some target → target = fullId) :
    Permitted guard reference heard request := by
  obtain ⟨first, rfl, rfl⟩ := h.begins
  exact .act (vetoed_eq_false_iff.mp h.spared) acts aimed

theorem Replaces.permitted {target : Target} {rest : List Exchange} {request : Request}
    (h : Replaces guard action reference target rest heard) (acts : request.isInspect = false)
    (aimed : ∀ id, request.target? = some id → id = target.fullId) :
    Permitted guard reference heard request := by
  obtain ⟨-, info, -, hopened⟩ := h
  exact hopened.permitted acts aimed

/-- A phase asks for what its story permits. -/
theorem Story.permitted {request : Request} (story : Story guard action reference heard phase)
    (asks : phase.request? reference = some request) :
    Permitted guard reference heard request := by
  cases phase with
  | resolving =>
    obtain rfl := Option.some.inj asks
    obtain rfl : heard = [] := story
    exact .lookUp
  | queueing fullId => cases asks
  | rechecking fullId =>
    obtain rfl := Option.some.inj asks
    obtain ⟨first, rfl, rfl⟩ := story
    exact .lookAgain first
  | stopping fullId =>
    obtain rfl := Option.some.inj asks
    obtain ⟨-, info, hopened⟩ := story
    exact hopened.permitted rfl fun _ h => (Option.some.inj h).symm
  | restarting fullId =>
    obtain rfl := Option.some.inj asks
    obtain ⟨-, info, hopened⟩ := story
    exact hopened.permitted rfl fun _ h => (Option.some.inj h).symm
  | pulling target =>
    obtain rfl := Option.some.inj asks
    exact Replaces.permitted story rfl fun _ h => nomatch h
  | halting target =>
    obtain rfl := Option.some.inj asks
    exact Replaces.permitted story rfl fun _ h => (Option.some.inj h).symm
  | removing target =>
    obtain rfl := Option.some.inj asks
    obtain ⟨stopped, -, hreplaces⟩ := story
    exact hreplaces.permitted rfl fun _ h => (Option.some.inj h).symm
  | creating target =>
    obtain rfl := Option.some.inj asks
    obtain ⟨stopped, -, hreplaces⟩ := story
    exact hreplaces.permitted rfl fun _ h => nomatch h
  | connecting target newId network left =>
    obtain rfl := Option.some.inj asks
    obtain ⟨stopped, connects, -, -, hreplaces⟩ := story
    exact hreplaces.permitted rfl fun _ h => nomatch h
  | starting target newId =>
    obtain rfl := Option.some.inj asks
    obtain ⟨stopped, connects, -, -, hreplaces⟩ := story
    exact hreplaces.permitted rfl fun _ h => nomatch h

end Story

end Lifecycle

/-! ### Protection in every run -/

namespace Engine

open Lifecycle

section Run

variable {guard : Guard} {events : List Event} {n : Nat} {action : Action} {reference : String}

/-- An operation under way has the story of its phase. -/
theorem story_of_live (legal : Legal events)
    (begun : .begin n (.manage action reference .resolving) ∈ events) {op : Operation}
    (live : ((start guard).after events).find? n = some op) :
    ∃ phase, op = .manage action reference phase ∧
      Story guard action reference ((start guard).heard n events) phase ∧
      (start guard).asked n events =
        ((start guard).heard n events).map Exchange.request ++
          (phase.request? reference).toList := by
  obtain ⟨phase, heard, story, ⟨hheard, hasked, -, hfind | ⟨hfind, -⟩⟩ | hover⟩ :=
    share_of_manage guard legal begun
  · rw [live] at hfind
    exact ⟨phase, Option.some.inj hfind, hheard ▸ story, hheard ▸ hasked⟩
  · rw [live] at hfind
    cases hfind
  · obtain ⟨-, -, -, -, -, -, -, -, hfind⟩ := hover
    rw [live] at hfind
    cases hfind

/-- **An operation asks only for what it may ask for**, at every moment of a run. -/
theorem permitted_of_moment {past future : List Event} {event : Event}
    (legal : Legal (past ++ event :: future))
    (begun : .begin n (.manage action reference .resolving) ∈ past ++ event :: future)
    {request : Request} (asks : request ∈ ((start guard).after past).asked n [event]) :
    Permitted guard reference ((start guard).heard n (past ++ [event])) request := by
  rw [List.append_cons] at legal begun
  have hbegins : Begins (past ++ [event]) n := begins_of_asked guard (by
    rw [asked_append]
    exact List.append_ne_nil_of_right_ne_nil _ (List.ne_nil_of_mem asks))
  have hbegun := legal.begun_before begun hbegins
  obtain ⟨-, op, live, hasks⟩ := live_of_asked asks
  rw [← after_singleton, ← after_append] at live
  obtain ⟨phase, rfl, story, -⟩ := story_of_live legal.of_append hbegun live
  exact story.permitted hasks

/-- What an operation has asked for was permitted when it asked. -/
theorem permitted_of_asked (legal : Legal events)
    (begun : .begin n (.manage action reference .resolving) ∈ events) {request : Request}
    (asked : request ∈ (start guard).asked n events) :
    ∃ heard, heard <+: (start guard).heard n events ∧ Permitted guard reference heard request := by
  obtain ⟨past, event, future, rfl, asks⟩ := exists_moment_of_asked asked
  refine ⟨_, ?_, permitted_of_moment legal begun asks⟩
  have hevents : past ++ event :: future = past ++ [event] ++ future := List.append_cons ..
  rw [hevents, heard_append _ _ (past ++ [event]) future]
  exact List.prefix_append _ _

/-- An operation has the lock from its second inspection until it is over. -/
theorem heldLock?_of_asked (legal : Legal events)
    (begun : .begin n (.manage action reference .resolving) ∈ events)
    {first : InspectRecord} {rest : List Exchange}
    (heard : (start guard).heard n events = ⟨.inspect reference, .ok first⟩ :: rest)
    (asked : 2 ≤ ((start guard).asked n events).length) {op : Operation}
    (live : ((start guard).after events).find? n = some op) :
    op.heldLock? = some (first.id.getD reference) := by
  obtain ⟨phase, rfl, story, hasked⟩ := story_of_live legal begun live
  rw [hasked] at asked
  exact (story.heldLock?_eq asked).trans (story.fullId?_eq heard)

/-- An operation that gets the lock after some moment has not asked for its second inspection by
then. -/
theorem asked_le_one_of_owner?_later {past between future : List Event}
    (legal : Legal (past ++ between ++ future))
    (begun : .begin n (.manage action reference .resolving) ∈ past ++ between ++ future)
    {first : InspectRecord} {rest : List Exchange}
    (heard : (start guard).heard n (past ++ between ++ future) =
      ⟨.inspect reference, .ok first⟩ :: rest)
    (before : ((start guard).after past).locks.owner? (first.id.getD reference) ≠ some n)
    (later : ((start guard).after (past ++ between)).locks.owner? (first.id.getD reference) =
      some n) : ((start guard).asked n past).length ≤ 1 := by
  by_contra hmany
  have hlegal : Legal past := legal.of_append.of_append
  have hbegins : Begins past n := begins_of_asked guard fun hnil => by simp [hnil] at hmany
  have hbegun : .begin n (.manage action reference .resolving) ∈ past :=
    legal.of_append.begun_before (legal.begun_before begun
      (hbegins.imp fun _ hop => List.mem_append_left _ hop)) hbegins
  cases live : ((start guard).after past).find? n with
  | none =>
    -- whoever is over is in no line
    have hover := find?_eq_none_of_over guard legal.of_append hbegins live
    have hsound := sound_after guard legal.of_append
    rw [hsound.locks.owner?_eq] at later
    obtain ⟨op, hop, -⟩ := hsound.lined.mp (List.mem_of_head? later)
    rw [hover] at hop
    cases hop
  | some op =>
    -- whoever is under way has had the lock since the second inspection
    obtain ⟨phase, rfl, story, hasked⟩ := story_of_live hlegal hbegun live
    obtain ⟨rest', hheard⟩ : ∃ rest', (start guard).heard n past =
        ⟨.inspect reference, .ok first⟩ :: rest' := by
      have hpre : (start guard).heard n past <+: ⟨.inspect reference, .ok first⟩ :: rest := by
        rw [← heard, List.append_assoc, heard_append]
        exact List.prefix_append _ _
      rcases List.prefix_cons_iff.mp hpre with hnil | ⟨rest', hrest', -⟩
      · -- whoever has heard nothing has asked for one thing at most
        rw [hasked, hnil] at hmany
        cases hrequest : phase.request? reference <;> simp [hrequest] at hmany
      · exact ⟨rest', hrest'⟩
    have hheld := heldLock?_of_asked hlegal hbegun hheard (by omega) live
    exact before ((sound_after guard hlegal).owner?_of_held live hheld)

/-- **The veto.** An operation that hears of a protected container in its second inspection is
refused. -/
theorem refused_of_heard (legal : Legal events)
    (begun : .begin n (.manage action reference .resolving) ∈ events) {fullId : String}
    {first info : InspectRecord} {rest : List Exchange}
    (hears : (start guard).heard n events =
      ⟨.inspect reference, .ok first⟩ :: ⟨.inspect fullId, .ok info⟩ :: rest)
    (veto : vetoed guard reference fullId info = true) :
    (start guard).asked n events = [.inspect reference, .inspect fullId] ∧
      (start guard).returned n events = [.error (.blacklisted reference)] := by
  obtain ⟨phase, heard, story, ⟨hheard, -, -, -⟩ | hover⟩ := share_of_manage guard legal begun
  · -- an operation that goes on was spared
    rw [story.spared (hheard.symm.trans hears)] at veto
    cases veto
  · obtain ⟨request, answers, result, hasks, hresult, hheard, hasked, hreturned, -⟩ := hover
    rw [hheard] at hears
    rcases story.stages with ⟨-, rfl⟩ | ⟨_, rfl, rfl | rfl⟩ | ⟨_, info', _, hopened, -⟩
    · cases (List.cons.inj hears).2
    · cases hasks
    · -- the operation returns from its second inspection
      obtain rfl := Option.some.inj hasks
      obtain ⟨hsecond, -⟩ := List.cons.inj (List.cons.inj hears).2
      obtain ⟨rfl, hinfo⟩ := Exchange.inspect_inj hsecond
      simp only [Lifecycle.resume] at hresult
      rw [hinfo] at hresult
      dsimp only at hresult
      rw [if_pos veto] at hresult
      cases hresult
      exact ⟨hasked, hreturned⟩
    · -- the record that the operation went on with was not protected
      obtain ⟨_, -, rfl⟩ := hopened.begins
      obtain ⟨hsecond, -⟩ := List.cons.inj (List.cons.inj hears).2
      obtain ⟨rfl, hinfo⟩ := Exchange.inspect_inj hsecond
      cases hinfo
      rw [hopened.spared] at veto
      cases veto

/-- An operation of which the second inspection fails, whenever it is answered, asks for nothing
more and returns the failure. -/
theorem ends_of_second_fault (legal : Legal events)
    (begun : .begin n (.manage action reference .resolving) ∈ events)
    {first : InspectRecord} {rest : List Exchange}
    (hears : (start guard).heard n events = ⟨.inspect reference, .ok first⟩ :: rest)
    (fails : ∀ answer more, rest = ⟨.inspect (first.id.getD reference), answer⟩ :: more →
      ∃ fault, answer = .error fault) :
    (start guard).asked n events <+:
        [.inspect reference, .inspect (first.id.getD reference)] ∧
      (rest = [] ∧ (start guard).returned n events = [] ∨
        ∃ fault, rest = [⟨.inspect (first.id.getD reference), .error fault⟩] ∧
          (start guard).returned n events = [.error (.ofFault fault)]) := by
  -- whoever acts on the container has heard of a second inspection that succeeds
  have hspared {heard tail : List Exchange} {fullId : String} {info : InspectRecord}
      {spared : List Exchange} (hopened : Opened guard reference fullId info spared heard)
      (h : heard ++ tail = ⟨.inspect reference, .ok first⟩ :: rest) : False := by
    obtain ⟨first', rfl, rfl⟩ := hopened.begins
    obtain ⟨hfirst, hrest⟩ := List.cons.inj h
    cases (Exchange.inspect_inj hfirst).2
    obtain ⟨fault, hfault⟩ := fails _ _ hrest.symm
    cases hfault
  obtain ⟨phase, heard, story, ⟨hheard, hasked, hreturned, -⟩ | hover⟩ :=
    share_of_manage guard legal begun
  · rw [hasked, hreturned]
    rw [hheard] at hears
    rcases story.stages with ⟨-, rfl⟩ | ⟨_, rfl, hphase⟩ | ⟨_, info, _, hopened, -⟩
    · cases hears
    · obtain ⟨hfirst, rfl⟩ := List.cons.inj hears
      cases (Exchange.inspect_inj hfirst).2
      refine ⟨?_, .inl ⟨rfl, rfl⟩⟩
      rcases hphase with rfl | rfl
      · exact List.prefix_append _ _
      · exact List.prefix_rfl
    · exact (hspared hopened ((List.append_nil heard).trans hears)).elim
  · obtain ⟨request, answers, result, hasks, hresult, hheard, hasked, hreturned, -⟩ := hover
    rw [hasked, hreturned]
    rw [hheard] at hears
    rcases story.stages with ⟨rfl, rfl⟩ | ⟨_, rfl, rfl | rfl⟩ | ⟨_, info, _, hopened, -⟩
    · -- an operation does not return from a first inspection that succeeds
      obtain rfl := Option.some.inj hasks
      have hok := (Exchange.inspect_inj (List.cons.inj hears).1).2
      simp only [Lifecycle.resume] at hresult
      rw [hok] at hresult
      cases hresult
    · cases hasks
    · obtain rfl := Option.some.inj hasks
      obtain ⟨hfirst, rfl⟩ := List.cons.inj hears
      cases (Exchange.inspect_inj hfirst).2
      obtain ⟨fault, hfault⟩ := fails _ _ rfl
      simp only [Lifecycle.resume] at hresult
      rw [hfault] at hresult
      cases hresult
      exact ⟨List.prefix_rfl, .inr ⟨fault, by rw [hfault]; rfl, rfl⟩⟩
    · exact (hspared hopened hears).elim

/-- **Protection.** An operation that stops, restarts or updates a container asks for nothing but
what it may ask for, it has the lock of the container from its second inspection until it is over,
and it is refused if that inspection shows that the container is protected. -/
theorem protection (legal : Legal events)
    (begun : .begin n (.manage action reference .resolving) ∈ events) :
    (∀ past event future, events = past ++ event :: future →
      ∀ request ∈ ((start guard).after past).asked n [event],
        Permitted guard reference ((start guard).heard n (past ++ [event])) request) ∧
    (∀ past future, events = past ++ future → ∀ first rest,
      (start guard).heard n past = ⟨.inspect reference, .ok first⟩ :: rest →
      2 ≤ ((start guard).asked n past).length →
      (((start guard).after past).find? n).isSome →
        ((start guard).after past).locks.owner? (first.id.getD reference) = some n) ∧
    (∀ first info rest,
      (start guard).heard n events = ⟨.inspect reference, .ok first⟩ ::
        ⟨.inspect (first.id.getD reference), .ok info⟩ :: rest →
      (∃ text ∈ namesOf reference (first.id.getD reference) info, text ∈ guard.entries) →
        (start guard).asked n events =
          [.inspect reference, .inspect (first.id.getD reference)] ∧
        (start guard).returned n events = [.error (.blacklisted reference)]) := by
  refine ⟨?_, ?_, ?_⟩
  · rintro past event future rfl request asks
    exact permitted_of_moment legal begun asks
  · rintro past future rfl first rest heard asked underWay
    have hbegins : Begins past n := begins_of_heard guard (by
      rw [heard]
      exact List.cons_ne_nil _ _)
    have hbegun := legal.begun_before begun hbegins
    obtain ⟨op, live⟩ := Option.isSome_iff_exists.mp underWay
    have hheld := heldLock?_of_asked legal.of_append hbegun heard asked live
    exact (sound_after guard legal.of_append).owner?_of_held live hheld
  · intro first info rest heard hprotected
    exact refused_of_heard legal begun heard (vetoed_iff.mpr hprotected)

end Run

/-- A daemon that tells the same of every container and does nothing. -/
def telling (info : InspectRecord) : Answers
  | .inspect _ => .ok info
  | _ => .error .timeout

/-- The record of a container with an id and a name. -/
def recordOf (id name : String) : InspectRecord :=
  { id := some id, name := some ("/" ++ name) }

/-- An update of the container `web`, called with a part of its id. -/
def refusedUpdate : List Event :=
  [.begin 0 (.update "4f"), .answer 0 (telling (recordOf "4f1a" "web")),
    .answer 0 (telling (recordOf "4f1a" "web"))]

theorem protection_refusedUpdate :
    Legal refusedUpdate ∧ .begin 0 (.manage .update "4f" .resolving) ∈ refusedUpdate ∧
      (start ⟨["web"]⟩).asked 0 refusedUpdate = [.inspect "4f", .inspect "4f1a"] ∧
      (start ⟨["web"]⟩).returned 0 refusedUpdate = [.error (.blacklisted "4f")] := by
  have hlegal : Legal refusedUpdate := by
    refine ⟨fun n op hmem => ?_, by decide⟩
    obtain ⟨rfl, rfl⟩ : n = 0 ∧ op = .update "4f" := by simpa [refusedUpdate] using hmem
    rfl
  have hbegun : .begin 0 (.manage .update "4f" .resolving) ∈ refusedUpdate := List.mem_cons_self
  obtain ⟨-, -, hrefused⟩ := protection hlegal hbegun
  refine ⟨hlegal, hbegun, hrefused (recordOf "4f1a" "web") (recordOf "4f1a" "web") [] rfl ?_⟩
  exact ⟨"web", by decide, by decide⟩

end Engine

end Dockmaster
