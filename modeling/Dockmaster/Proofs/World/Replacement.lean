import Dockmaster.Proofs.Engine.Protection
import Dockmaster.Proofs.World.Scripted

/-!
# One replacement for each container

With a lawful daemon a container is removed once at most, only the update that removed it creates a
replacement, and one at most, and whoever comes after the removal finds nothing and leaves it at
that (`one_replacement`).

A removal concerns an id that the daemon told (`resolve_of_heard`), so the container was there
before it and is gone after it (`resolve_of_removal`). Since it never comes back
(`resolve_eq_none_of_removal`), there is no second removal, and an inspection that is made later
finds nothing.
-/

namespace Dockmaster

/-- The reference of a removal that succeeded. -/
def Exchange.removed? : Exchange → Option String
  | ⟨.remove reference _, .ok _⟩ => some reference
  | _ => none

theorem Exchange.removed?_eq_some {exchange : Exchange} {reference : String}
    (h : exchange.removed? = some reference) :
    ∃ force, exchange = ⟨.remove reference force, .ok ()⟩ := by
  obtain ⟨request, answer⟩ := exchange
  cases request with
  | remove reference' force =>
    cases answer with
    | error fault => cases h
    | ok reply =>
      obtain rfl := Option.some.inj h
      exact ⟨force, rfl⟩
  | _ => cases h

namespace World

variable {σ : Type}

/-- The removals of a container that succeeded in the course of some events. -/
def removals (server : Operation.Server σ) (w : World σ) (id : String) (events : List Event) :
    List Service :=
  (w.services server events).filter (·.exchange.removed? = some id)

theorem Lawful.of_isPrefix {server : Operation.Server σ} {resolve : σ → String → Option String}
    {w : World σ} {past events : List Event} (h : Lawful server resolve w events)
    (hpast : past <+: events) : Lawful server resolve w past where
  honest hp := h.honest (hp.trans hpast)
  own hp hq := h.own hp (hq.trans hpast)
  gone hp hq hr := h.gone hp hq (hr.trans hpast)

theorem Legal.of_isPrefix {server : Operation.Server σ} {w : World σ} {past events : List Event}
    (h : w.Legal server events) (hpast : past <+: events) : w.Legal server past := by
  obtain ⟨future, rfl⟩ := hpast
  exact h.of_append

section Run

variable {server : Operation.Server σ} {resolve : σ → String → Option String} {guard : Guard}
  {daemon : σ} {events past future : List Event}

/-! ### What was there -/

/-- The id that an operation heard of was the id of a container. -/
theorem resolve_of_heard (lawful : Lawful server resolve (start guard daemon) events)
    (legal : (start guard daemon).Legal server events) {n : Nat} {reference : String}
    {first : InspectRecord} {rest : List Exchange}
    (heard : (start guard daemon).heard server n events =
      ⟨.inspect reference, .ok first⟩ :: rest) :
    ∃ id past, first.id = some id ∧ past <+: events ∧
      resolve ((start guard daemon).daemonAfter server past) id = some id := by
  have hpre := (coherent_after server guard daemon legal n).prefix_served
  have hserved : ⟨.inspect reference, .ok first⟩ ∈ (start guard daemon).served server n events := by
    apply hpre.subset
    rw [heard]
    exact List.mem_cons_self
  obtain ⟨fault, hservice⟩ := exists_service_of_served hserved
  obtain ⟨past, event, future, rfl, hmoment⟩ := exists_moment_of_service hservice
  obtain ⟨request, -, hexchange, -⟩ := service?_eq_some hmoment
  obtain ⟨rfl, hanswer⟩ := Exchange.mk.inj hexchange
  obtain ⟨-, hok⟩ := attend_eq_ok (eq_of_heq hanswer).symm
  -- the inspection succeeded, so the daemon told the id of a container that was there
  have honest := lawful.honest (List.prefix_append past _)
  obtain ⟨id, hresolve, hid⟩ := honest.told hok
  exact ⟨id, past, hid, List.prefix_append _ _, honest.named hresolve⟩

/-- **A removal**: the container was there before it and is gone after it. -/
theorem resolve_of_removal {past : List Event} {event : Event}
    (lawful : Lawful server resolve (start guard daemon) (past ++ [event]))
    (legal : (start guard daemon).Legal server (past ++ [event])) {service : Service} {id : String}
    (hservice : ((start guard daemon).after server past).service? server event = some service)
    (hremoved : service.exchange.removed? = some id) :
    resolve ((start guard daemon).daemonAfter server past) id = some id ∧
      resolve ((start guard daemon).daemonAfter server (past ++ [event])) id = none := by
  obtain ⟨force, hexchange⟩ := Exchange.removed?_eq_some hremoved
  obtain ⟨request, hflight, hanswer, hdaemon⟩ := service?_eq_some hservice
  rw [hexchange] at hanswer
  obtain ⟨rfl, hanswer⟩ := Exchange.mk.inj hanswer
  obtain ⟨hfault, hok⟩ := attend_eq_ok (eq_of_heq hanswer).symm
  have hpast : past <+: past ++ [event] := List.prefix_append _ _
  have hlegal := legal.of_append
  -- whoever removes the container had heard of its id
  have hcoherent := coherent_after server guard daemon hlegal service.number
  have hasked : .remove id force ∈ (start guard daemon).asked server service.number past := by
    rw [hcoherent.asked_of_flight hflight]
    exact List.mem_append_right _ (List.mem_singleton_self _)
  obtain ⟨action, reference, hbegun⟩ := Engine.manage_of_target? guard hlegal hasked nofun
  obtain ⟨heard, hpre, hpermitted⟩ := Engine.permitted_of_asked hlegal hbegun hasked
  obtain ⟨first, rest, hheard, rfl⟩ : ∃ first rest,
      (start guard daemon).heard server service.number past =
        ⟨.inspect reference, .ok first⟩ :: rest ∧ id = first.id.getD reference := by
    cases hpermitted with
    | act spared acts aimed =>
      obtain ⟨rest, hrest⟩ := hpre
      exact ⟨_, _, hrest.symm, aimed id rfl⟩
  obtain ⟨id, before, hid, hbefore, hresolve⟩ :=
    resolve_of_heard (lawful.of_isPrefix hpast) hlegal hheard
  rw [hid, Option.getD_some] at hok ⊢
  obtain ⟨other, hother, hgone⟩ := (lawful.honest hpast).removed hok
  obtain rfl := lawful.own hbefore hpast hresolve hother
  refine ⟨hother, ?_⟩
  have hafter : (start guard daemon).daemonAfter server (past ++ [event]) =
      (server ((start guard daemon).daemonAfter server past) (.remove other force)).1 := by
    unfold daemonAfter
    rw [after_append, after_singleton, hdaemon, hfault, hid]
    rfl
  rw [← hafter] at hgone
  -- the id names nothing else either, since it is not used again
  refine Option.eq_none_iff_forall_ne_some.mpr fun id hid => hgone ?_
  rwa [lawful.own hpast List.prefix_rfl hother hid] at hid

/-- **What was removed stays gone.** -/
theorem resolve_eq_none_of_removal {past later : List Event} {event : Event}
    (lawful : Lawful server resolve (start guard daemon) (past ++ [event] ++ later))
    (legal : (start guard daemon).Legal server (past ++ [event] ++ later)) {service : Service}
    {id : String}
    (hservice : ((start guard daemon).after server past).service? server event = some service)
    (hremoved : service.exchange.removed? = some id) :
    resolve ((start guard daemon).daemonAfter server (past ++ [event] ++ later)) id = none := by
  have hlater : past ++ [event] <+: past ++ [event] ++ later := List.prefix_append _ _
  obtain ⟨hthere, hgone⟩ := resolve_of_removal (lawful.of_isPrefix hlater) legal.of_append hservice
    hremoved
  exact lawful.gone (List.prefix_append past [event]) hlater List.prefix_rfl hthere hgone

/-- **No second removal.** -/
theorem length_removals_le_one (lawful : Lawful server resolve (start guard daemon) events)
    (legal : (start guard daemon).Legal server events) (id : String) :
    ((start guard daemon).removals server id events).length ≤ 1 := by
  induction events using List.reverseRecOn with
  | nil => exact Nat.zero_le 1
  | append_singleton past event ih =>
    have hpast : past <+: past ++ [event] := List.prefix_append _ _
    have hle := ih (lawful.of_isPrefix hpast) legal.of_append
    unfold removals at hle ⊢
    rw [services_append, services_singleton, List.filter_append, List.length_append]
    cases hservice : ((start guard daemon).after server past).service? server event with
    | none => simpa using hle
    | some service =>
      by_cases hremoved : service.exchange.removed? = some id
      · -- the container is still there, so it was not removed before
        have hnone : ((start guard daemon).services server past).filter
            (·.exchange.removed? = some id) = [] := by
          apply List.filter_eq_nil_iff.mpr
          intro other hother hid
          obtain ⟨before, last, between, rfl, hmoment⟩ := exists_moment_of_service hother
          obtain ⟨hstill, -⟩ := resolve_of_removal lawful legal hservice hremoved
          have hsplit : before ++ last :: between = before ++ [last] ++ between :=
            List.append_cons ..
          rw [hsplit] at lawful legal hstill
          have hgone := resolve_eq_none_of_removal
            (lawful.of_isPrefix (List.prefix_append _ [event])) legal.of_append hmoment
            (by simpa using hid)
          rw [hstill] at hgone
          cases hgone
        rw [hnone, List.length_nil, Nat.zero_add]
        exact List.length_filter_le _ [service]
      · have hnil : ([service].filter fun s => decide (s.exchange.removed? = some id)) = [] :=
          List.filter_eq_nil_iff.mpr (by simpa using hremoved)
        rw [Option.toList_some, hnil]
        exact hle

/-! ### Those who come later -/

/-- The second of a list that begins with no more than one other item is one of those after it. -/
theorem mem_of_prefix_append {α : Type} {first second : α} {rest before later : List α}
    (h : first :: second :: rest <+: before ++ later) (hfew : before.length ≤ 1) :
    second ∈ later := by
  cases before with
  | nil => exact h.subset (List.mem_cons_of_mem _ List.mem_cons_self)
  | cons a before =>
    cases before with
    | nil => exact (List.cons_prefix_cons.mp h).2.subset List.mem_cons_self
    | cons b before =>
      rw [List.length_cons, List.length_cons] at hfew
      omega

/-- **Those who come later**: an operation that has asked for no more than its first inspection by
some moment, or that does not have the lock of a container then and gets it later. -/
def Late (server : Operation.Server σ) (w : World σ) (n : Nat) (id : String)
    (past future : List Event) : Prop :=
  (w.asked server n past).length ≤ 1 ∨
    (w.after server past).engine.locks.owner? id ≠ some n ∧
      ∃ between rest, future = between ++ rest ∧
        (w.after server (past ++ between)).engine.locks.owner? id = some n

/-- Whoever gets the lock later has asked for no more than the first inspection. -/
theorem Late.asked_le_one {n : Nat} {action : Lifecycle.Action} {reference : String}
    {first : InspectRecord} {rest : List Exchange}
    (late : (start guard daemon).Late server n (first.id.getD reference) past future)
    (legal : (start guard daemon).Legal server (past ++ future))
    (begun : .begin n (.manage action reference .resolving) ∈ past ++ future)
    (heard : (start guard daemon).heard server n (past ++ future) =
      ⟨.inspect reference, .ok first⟩ :: rest) :
    ((start guard daemon).asked server n past).length ≤ 1 := by
  obtain hfew | ⟨before, between, last, rfl, later⟩ := late
  · exact hfew
  · have hbegun : .begin n (.manage action reference .resolving) ∈
        (start guard daemon).engineEvents server (past ++ (between ++ last)) :=
      begin_mem_engineEvents.mpr begun
    rw [engine_after] at before later
    unfold World.Legal at legal
    unfold World.heard at heard
    rw [← List.append_assoc, engineEvents_append, engineEvents_append] at legal heard hbegun
    rw [engineEvents_append] at later
    exact Engine.asked_le_one_of_owner?_later legal hbegun heard before later

/-- What an operation hears when it has not asked for more than one thing by some moment, except for
the first exchange, is served after that moment. -/
theorem mem_served_of_late (legal : (start guard daemon).Legal server (past ++ future)) {n : Nat}
    {first second : Exchange} {rest : List Exchange}
    (heard : (start guard daemon).heard server n (past ++ future) = first :: second :: rest)
    (late : ((start guard daemon).asked server n past).length ≤ 1) :
    second ∈ ((start guard daemon).after server past).served server n future := by
  have hpre := (coherent_after server guard daemon legal n).prefix_served
  have hfew : ((start guard daemon).served server n past).length ≤ 1 := by
    have hserved := (coherent_after server guard daemon legal.of_append n).prefix_asked
    have hlength := hserved.length_le
    rw [List.length_map] at hlength
    exact Nat.le_trans hlength late
  rw [heard, served_append] at hpre
  exact mem_of_prefix_append hpre hfew

/-- **An inspection after the removal finds nothing**, or was made to fail. -/
theorem fault_of_late {past future : List Event} {event : Event}
    (lawful : Lawful server resolve (start guard daemon) (past ++ event :: future))
    (legal : (start guard daemon).Legal server (past ++ event :: future)) {service : Service}
    {id : String}
    (hservice : ((start guard daemon).after server past).service? server event = some service)
    (hremoved : service.exchange.removed? = some id) {n : Nat} {first : Exchange}
    {answer : Except DaemonFault InspectRecord} {rest : List Exchange}
    (heard : (start guard daemon).heard server n (past ++ event :: future) =
      first :: ⟨.inspect id, answer⟩ :: rest)
    (late : ((start guard daemon).asked server n past).length ≤ 1) :
    ∃ fault, answer = .error fault ∧
      ((∃ message, fault = .response 404 message) ∨
        ⟨n, some fault, ⟨.inspect id, .error fault⟩⟩ ∈
          (start guard daemon).services server (past ++ event :: future)) := by
  obtain ⟨injected, hmem⟩ := exists_service_of_served (mem_served_of_late legal heard late)
  obtain ⟨between, last, rest', hsplit, hmoment⟩ := exists_moment_of_service hmem
  rw [← after_append] at hmoment
  obtain ⟨request, -, hexchange, -⟩ := service?_eq_some hmoment
  obtain ⟨rfl, hanswer⟩ := Exchange.mk.inj hexchange
  replace hanswer := eq_of_heq hanswer
  cases injected with
  | some fault =>
    obtain rfl : answer = .error fault := hanswer
    refine ⟨fault, rfl, .inr ?_⟩
    rw [services_append]
    exact List.mem_append_right _ hmem
  | none =>
    -- the inspection was served after the removal, when the container was gone
    obtain ⟨before, hbetween⟩ : ∃ before, between = event :: before := by
      cases between with
      | nil =>
        obtain rfl : event = last := (List.cons.inj hsplit).1
        rw [List.append_nil, hservice] at hmoment
        rw [Option.some.inj hmoment] at hremoved
        cases hremoved
      | cons head before => exact ⟨before, by rw [(List.cons.inj hsplit).1]⟩
    have hevents : past ++ event :: future = past ++ [event] ++ (before ++ last :: rest') := by
      rw [hsplit, hbetween]
      simp
    have hlast : past ++ between = past ++ [event] ++ before := by
      rw [hbetween, List.append_cons]
    rw [hevents] at lawful legal
    have hbefore : past ++ [event] ++ before <+: past ++ [event] ++ (before ++ last :: rest') := by
      rw [← List.append_assoc _ before]
      exact List.prefix_append _ _
    have hgone := resolve_eq_none_of_removal (lawful.of_isPrefix hbefore)
      (legal.of_isPrefix hbefore) hservice hremoved
    obtain ⟨message, hmissing⟩ := (lawful.honest hbefore).missing hgone
    rw [← hlast] at hmissing
    exact ⟨_, hanswer.trans hmissing, .inl ⟨message, rfl⟩⟩

/-- **One replacement for each container.** With a lawful daemon, a container is removed once at
most. An operation on it that asks for a replacement is an update, it asks for one only, and it is
the one that removed it. An operation on it that gets the lock after the removal asks for nothing
after its second inspection. When this is answered, the operation returns that there is no such
container, or the failure that the inspection was made to have. -/
theorem one_replacement (lawful : Lawful server resolve (start guard daemon) events)
    (legal : (start guard daemon).Legal server events) (fullId : String) :
    ((start guard daemon).removals server fullId events).length ≤ 1 ∧
    ∀ n action reference first rest,
      .begin n (.manage action reference .resolving) ∈ events →
      (start guard daemon).heard server n events = ⟨.inspect reference, .ok first⟩ :: rest →
      first.id.getD reference = fullId →
      ((start guard daemon).asked server n events).countP (·.isCreate) ≤ 1 ∧
      (0 < ((start guard daemon).asked server n events).countP (·.isCreate) →
        action = .update ∧ ∃ removal, removal.number = n ∧
          (start guard daemon).removals server fullId events = [removal]) ∧
      ∀ past event future removal, events = past ++ event :: future →
        ((start guard daemon).after server past).service? server event = some removal →
        removal.exchange.removed? = some fullId →
        (start guard daemon).Late server n fullId past (event :: future) →
        (start guard daemon).asked server n events <+: [.inspect reference, .inspect fullId] ∧
        (rest = [] ∧ (start guard daemon).returned server n events = [] ∨
          ∃ fault, rest = [⟨.inspect fullId, .error fault⟩] ∧
            (start guard daemon).returned server n events = [.error (.ofFault fault)] ∧
            ((∃ message, ServiceError.ofFault fault = .notFound message) ∨
              ⟨n, some fault, ⟨.inspect fullId, .error fault⟩⟩ ∈
                (start guard daemon).services server events)) := by
  have hone := length_removals_le_one lawful legal fullId
  refine ⟨hone, ?_⟩
  rintro n action reference first rest begun heard rfl
  have hbegun : .begin n (.manage action reference .resolving) ∈
      (start guard daemon).engineEvents server events := begin_mem_engineEvents.mpr begun
  obtain ⟨hcreate, hremove⟩ := Engine.creates_of_asked guard legal hbegun heard
  refine ⟨hcreate, fun hpos => ?_, ?_⟩
  · obtain ⟨haction, hremoved⟩ := hremove hpos
    have hpre := (coherent_after server guard daemon legal n).prefix_served
    obtain ⟨fault, hservice⟩ := exists_service_of_served (hpre.subset hremoved)
    -- the removal that the operation heard of is the only one
    have hmem : ⟨n, fault, ⟨.remove (first.id.getD reference) true, .ok ()⟩⟩ ∈
        (start guard daemon).removals server (first.id.getD reference) events :=
      List.mem_filter.mpr ⟨hservice, by simp [Exchange.removed?]⟩
    obtain ⟨removal, hremoval⟩ :=
      List.length_eq_one_iff.mp (Nat.le_antisymm hone (List.length_pos_of_mem hmem))
    rw [hremoval] at hmem ⊢
    exact ⟨haction, removal, by rw [← List.mem_singleton.mp hmem], rfl⟩
  · rintro past event future removal rfl hservice hremoved hlate
    have late := hlate.asked_le_one legal begun heard
    -- the second inspection does not succeed, so the operation ends with it
    have hfails : ∀ answer more,
        rest = ⟨.inspect (first.id.getD reference), answer⟩ :: more →
          ∃ fault, answer = .error fault := by
      rintro answer more rfl
      obtain ⟨fault, hfault, -⟩ := fault_of_late lawful legal hservice hremoved heard late
      exact ⟨fault, hfault⟩
    obtain ⟨hasked, hend⟩ := Engine.ends_of_second_fault legal hbegun heard hfails
    refine ⟨hasked, ?_⟩
    rcases hend with ⟨hrest, hreturned⟩ | ⟨fault, hrest, hreturned⟩
    · exact .inl ⟨hrest, hreturned⟩
    · refine .inr ⟨fault, hrest, hreturned, ?_⟩
      rw [hrest] at heard
      obtain ⟨fault', hfault, hreason⟩ := fault_of_late lawful legal hservice hremoved heard late
      cases hfault
      rcases hreason with ⟨message, rfl⟩ | hinjected
      · exact .inl ⟨message, rfl⟩
      · exact .inr hinjected

end Run

open ScriptedDaemon (execute noSuchContainer)

/-- A daemon with one container, `web`. -/
def webDaemon : ScriptedDaemon where
  residents := [("4f1a", ⟨{ id := some "4f1a", name := some "/web" }, true, {}⟩)]
  nextIds := ["9e2b"]

/-- `web` is updated as far as the removal of the old container, and somebody waits to stop it. -/
def untilRemoved : List Event :=
  [.begin 0 (.update "web"), .begin 1 (.stop "4f"), .serve 0 none, .serve 1 none, .deliver 0,
    .deliver 1, .serve 0 none, .deliver 0, .serve 0 none, .deliver 0, .serve 0 none, .deliver 0]

/-- The update goes on to its end, and then it is the turn of the other one. -/
def onceRemoved : List Event :=
  [.deliver 0, .serve 0 none, .deliver 0, .serve 0 none, .deliver 0, .look 1, .serve 1 none,
    .deliver 1]

/-- A container is removed by an update while somebody waits to stop it. -/
def updateThenStop : List Event := untilRemoved ++ .serve 0 none :: onceRemoved

theorem lawful_updateThenStop :
    Lawful execute ScriptedDaemon.resolve? (start ⟨[]⟩ webDaemon) updateThenStop := by
  have keyed : webDaemon.Keyed := by
    intro entry hmem
    obtain rfl := List.mem_singleton.mp hmem
    rfl
  refine @lawful_of_lives (start ⟨[]⟩ webDaemon) updateThenStop ["4f1a", "9e2b"] keyed ?_ ?_
  · decide +kernel
  · intro id hid
    obtain rfl | rfl : id = "4f1a" ∨ id = "9e2b" := by simpa using hid
    · exact ⟨0, 13, by decide +kernel⟩
    · exact ⟨15, 22, by decide +kernel⟩

theorem legal_updateThenStop : (start ⟨[]⟩ webDaemon).Legal execute updateThenStop := by
  refine ⟨fun n op hmem => ?_, ?_⟩
  · obtain ⟨-, rfl⟩ | ⟨-, rfl⟩ : n = 0 ∧ op = .update "web" ∨ n = 1 ∧ op = .stop "4f" := by
      simpa [updateThenStop, untilRemoved, onceRemoved] using begin_mem_engineEvents.mp hmem
    · rfl
    · rfl
  · decide +kernel

/-- The update and it alone makes a replacement, and the other one finds nothing to stop. -/
theorem one_replacement_updateThenStop :
    Lawful execute ScriptedDaemon.resolve? (start ⟨[]⟩ webDaemon) updateThenStop ∧
    (start ⟨[]⟩ webDaemon).Legal execute updateThenStop ∧
    (∃ removal, removal.number = 0 ∧
      (start ⟨[]⟩ webDaemon).removals execute "4f1a" updateThenStop = [removal]) ∧
    (start ⟨[]⟩ webDaemon).asked execute 1 updateThenStop <+:
      [.inspect "4f", .inspect "4f1a"] := by
  have hlawful := lawful_updateThenStop
  have hlegal := legal_updateThenStop
  obtain ⟨-, hone⟩ := one_replacement hlawful hlegal "4f1a"
  have hbegun : .begin 0 (.manage .update "web" .resolving) ∈ updateThenStop := List.mem_cons_self
  have hbegun' : .begin 1 (.manage .stop "4f" .resolving) ∈ updateThenStop :=
    List.mem_cons_of_mem _ List.mem_cons_self
  let web : InspectRecord := { id := some "4f1a", name := some "/web" }
  have hheard' : (start ⟨[]⟩ webDaemon).heard execute 1 updateThenStop =
      [⟨.inspect "4f", .ok web⟩, ⟨.inspect "4f1a", .error (noSuchContainer "4f1a")⟩] := by
    with_unfolding_all rfl
  obtain ⟨rest, hheard⟩ : ∃ rest, (start ⟨[]⟩ webDaemon).heard execute 0 updateThenStop =
      ⟨.inspect "web", .ok web⟩ :: rest := ⟨_, by with_unfolding_all rfl⟩
  obtain ⟨-, hreplaced, -⟩ := hone 0 _ _ _ _ hbegun hheard rfl
  obtain ⟨-, -, hlate⟩ := hone 1 _ _ _ _ hbegun' hheard' rfl
  have hservice : ((start ⟨[]⟩ webDaemon).after execute untilRemoved).service? execute
      (.serve 0 none) = some ⟨0, none, ⟨.remove "4f1a" true, .ok ()⟩⟩ := by
    with_unfolding_all rfl
  have late : (start ⟨[]⟩ webDaemon).Late execute 1 "4f1a" untilRemoved
      (.serve 0 none :: onceRemoved) := by
    exact .inr ⟨by decide +kernel, .serve 0 none :: onceRemoved.take 5, onceRemoved.drop 5, rfl,
      by decide +kernel⟩
  obtain ⟨-, hremoval⟩ := hreplaced (by decide +kernel)
  obtain ⟨hasked, -⟩ := hlate _ _ _ _ rfl hservice rfl late
  exact ⟨hlawful, hlegal, hremoval, hasked⟩

end World

end Dockmaster
