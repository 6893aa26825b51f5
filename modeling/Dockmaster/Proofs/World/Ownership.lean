import Dockmaster.Proofs.World.Replacement

/-!
# Who acts on a replacement

The lock of an update is that of the container that it removes, so it does not keep others from the
replacement: as soon as this is there, the name of the container means it, and whoever looks the
name up gets the lock of the new id (`not_owned_renamed`). But an operation that looked its
container up before the replacement was created never acts on it, even if it waited for the update
and named the container by its name (`replacement_spared`): the new id was not in use then, so it is
not what the operation heard.
-/

namespace Dockmaster

/-- The id of a container that was created. -/
def Exchange.created? : Exchange → Option String
  | ⟨.create _ _, .ok id⟩ => some id
  | _ => none

theorem Exchange.created?_eq_some {exchange : Exchange} {id : String}
    (h : exchange.created? = some id) :
    ∃ name config, exchange = ⟨.create name config, .ok id⟩ := by
  obtain ⟨request, answer⟩ := exchange
  cases request with
  | create name config =>
    cases answer with
    | error fault => cases h
    | ok reply =>
      obtain rfl := Option.some.inj h
      exact ⟨name, config, rfl⟩
  | _ => cases h

namespace World

variable {σ : Type}

/-- Whether the records of a daemon carry the ids of the containers that they are asked for by. -/
def Tells (server : Operation.Server σ) (resolve : σ → String → Option String) (s : σ) : Prop :=
  ∀ reference info, (server s (.inspect reference)).2 = .ok info →
    ∃ id, resolve s reference = some id ∧ info.id = some id

/-- Whether the ids of new containers were never in use before. -/
def FreshIds (server : Operation.Server σ) (resolve : σ → String → Option String) (w : World σ)
    (events : List Event) : Prop :=
  ∀ past event service id, past ++ [event] <+: events →
    (w.after server past).service? server event = some service →
    service.exchange.created? = some id →
    ∀ before, before <+: past → ∀ reference,
      resolve (w.daemonAfter server before) reference ≠ some id

/-- Whether nobody else acts on the replacement of an update that has not returned. -/
def Owned (server : Operation.Server σ) (w : World σ) (events : List Event) : Prop :=
  ∀ past event future service newId, events = past ++ event :: future →
    (w.after server past).service? server event = some service →
    service.exchange.created? = some newId → w.returned server service.number events = [] →
    ∀ m, m ≠ service.number → ∀ request ∈ (w.after server (past ++ [event])).asked server m future,
      request.target? ≠ some newId

section Run

variable {server : Operation.Server σ} {resolve : σ → String → Option String} {guard : Guard}
  {daemon : σ} {events past future : List Event}

/-- What a successful inspection told was the id of a container at that time. -/
theorem resolve_of_served {w : World σ} {reference : String} {first : InspectRecord} {n : Nat}
    (tells : ∀ before, before <+: past → Tells server resolve (w.daemonAfter server before))
    (served : ⟨.inspect reference, .ok first⟩ ∈ w.served server n past) :
    ∃ before id, before <+: past ∧ first.id = some id ∧
      resolve (w.daemonAfter server before) reference = some id := by
  obtain ⟨fault, hservice⟩ := exists_service_of_served served
  obtain ⟨before, event, rest, rfl, hmoment⟩ := exists_moment_of_service hservice
  obtain ⟨request, -, hexchange, -⟩ := service?_eq_some hmoment
  obtain ⟨rfl, hanswer⟩ := Exchange.mk.inj hexchange
  obtain ⟨-, hok⟩ := attend_eq_ok (eq_of_heq hanswer).symm
  have hbefore : before <+: before ++ event :: rest := List.prefix_append _ _
  obtain ⟨id, hresolve, hid⟩ := tells before hbefore _ _ hok
  exact ⟨before, id, hbefore, hid, hresolve⟩

/-- Whoever asks to stop, restart or remove a container has heard its id, and has the lock of the id
as long as it is under way. -/
theorem heard_of_target? (legal : (start guard daemon).Legal server events) {n : Nat}
    {request : Request} (hasked : request ∈ (start guard daemon).asked server n events)
    {id : String} (htarget : request.target? = some id) :
    ∃ reference first rest,
      (start guard daemon).heard server n events = ⟨.inspect reference, .ok first⟩ :: rest ∧
      first.id.getD reference = id ∧
      ((((start guard daemon).after server events).engine.find? n).isSome →
        ((start guard daemon).after server events).engine.locks.owner? id = some n) := by
  have hlegal : Engine.Legal ((start guard daemon).engineEvents server events) := legal
  have hengine := engine_after server (start guard daemon) events
  obtain ⟨action, reference, hbegun⟩ :=
    Engine.manage_of_target? guard hlegal hasked (by rw [htarget]; exact Option.some_ne_none id)
  obtain ⟨heard, ⟨more, hmore⟩, hpermitted⟩ := Engine.permitted_of_asked hlegal hbegun hasked
  cases hpermitted with
  | lookUp => cases htarget
  | lookAgain first => cases htarget
  | @act first info rest request spared acts aimed =>
    obtain rfl := aimed id htarget
    refine ⟨reference, first, _, hmore.symm, rfl, fun live => ?_⟩
    obtain ⟨op, hop⟩ := Option.isSome_iff_exists.mp live
    rw [hengine] at hop ⊢
    -- both inspections were heard, so both were asked for
    have hmany : 2 ≤ ((start guard daemon).asked server n events).length := by
      have hcoherent := coherent_after server guard daemon legal n
      have hserved := hcoherent.prefix_served.length_le
      have hlength := hcoherent.prefix_asked.length_le
      have htwo : 2 ≤ ((start guard daemon).heard server n events).length := by
        show 2 ≤ ((Engine.start guard).heard n _).length
        rw [← hmore]
        simp
      rw [List.length_map] at hlength
      omega
    have hheld := Engine.heldLock?_of_asked hlegal hbegun hmore.symm hmany hop
    exact (Engine.sound_after guard hlegal).owner?_of_held hop hheld

/-- **An operation that looked its container up before a replacement was created** has not heard of
the replacement, even if it named the container by its name and waited for the update. -/
theorem id_ne_of_served {event : Event} {service : Service} {newId : String}
    (tells : ∀ before, before <+: past →
      Tells server resolve ((start guard daemon).daemonAfter server before))
    (fresh : FreshIds server resolve (start guard daemon) (past ++ event :: future))
    (created : ((start guard daemon).after server past).service? server event = some service)
    (hnew : service.exchange.created? = some newId) {n : Nat} {reference : String}
    {first : InspectRecord}
    (served : ⟨.inspect reference, .ok first⟩ ∈ (start guard daemon).served server n past) :
    first.id.getD reference ≠ newId := by
  obtain ⟨before, id, hbefore, hid, hresolve⟩ := resolve_of_served tells served
  rw [hid, Option.getD_some]
  rintro rfl
  have hmoment : past ++ [event] <+: past ++ event :: future := ⟨future, by simp⟩
  exact fresh past event service id hmoment created hnew before hbefore reference hresolve

/-- **Nobody who came before acts on a replacement.** On a daemon whose records carry the ids of the
containers and whose new ids were never in use, an operation whose first inspection was served
before a replacement was created never asks to stop, restart or remove the replacement; this holds
of the update that creates it, too. Whoever does ask for that has heard the new id in an inspection
that was served afterwards, and has the lock of the new id as long as it is under way. -/
theorem replacement_spared {event : Event} {service : Service} {newId : String}
    (tells : ∀ before, before <+: past →
      Tells server resolve ((start guard daemon).daemonAfter server before))
    (fresh : FreshIds server resolve (start guard daemon) (past ++ event :: future))
    (legal : (start guard daemon).Legal server (past ++ event :: future))
    (created : ((start guard daemon).after server past).service? server event = some service)
    (hnew : service.exchange.created? = some newId) (n : Nat) :
    ((start guard daemon).served server n past ≠ [] →
      ∀ request ∈ (start guard daemon).asked server n (past ++ event :: future),
        request.target? ≠ some newId) ∧
    ∀ request ∈ (start guard daemon).asked server n (past ++ event :: future),
      request.target? = some newId →
      (∃ reference first, first.id.getD reference = newId ∧
        ⟨.inspect reference, .ok first⟩ ∈
          ((start guard daemon).after server (past ++ [event])).served server n future) ∧
      ((((start guard daemon).after server (past ++ event :: future)).engine.find? n).isSome →
        ((start guard daemon).after server (past ++ event :: future)).engine.locks.owner? newId =
          some n) := by
  have hfuture : past ++ event :: future = past ++ [event] ++ future := List.append_cons ..
  -- whoever acts on the replacement was served nothing by the time of the creation
  have hlate : ∀ reference first rest,
      (start guard daemon).heard server n (past ++ event :: future) =
        ⟨.inspect reference, .ok first⟩ :: rest → first.id.getD reference = newId →
      (start guard daemon).served server n past = [] ∧
        ⟨.inspect reference, .ok first⟩ ∈
          ((start guard daemon).after server (past ++ [event])).served server n future := by
    rintro reference first rest heard hid
    have hpre := (coherent_after server guard daemon legal n).prefix_served
    rw [heard, hfuture, served_append, served_append, List.append_assoc] at hpre
    cases hpast : (start guard daemon).served server n past with
    | cons exchange more =>
      rw [hpast] at hpre
      have hserved : ⟨.inspect reference, .ok first⟩ ∈
          (start guard daemon).served server n past := by
        rw [hpast, (List.cons_prefix_cons.mp hpre).1]
        exact List.mem_cons_self
      exact absurd hid (id_ne_of_served tells fresh created hnew hserved)
    | nil =>
      refine ⟨rfl, ?_⟩
      rw [hpast, List.nil_append, served_singleton, created, Option.toList_some] at hpre
      by_cases hnumber : service.number = n
      · -- the operation that creates the replacement was served an inspection before
        rw [List.filter_cons_of_pos (by simpa using hnumber), List.filter_nil] at hpre
        have hfirst : _ = service.exchange := (List.cons_prefix_cons.mp hpre).1
        rw [← hfirst] at hnew
        cases hnew
      · rw [List.filter_cons_of_neg (by simpa using hnumber), List.filter_nil, List.map_nil,
          List.nil_append] at hpre
        exact hpre.subset List.mem_cons_self
  refine ⟨fun hserved request hasked htarget => ?_, fun request hasked htarget => ?_⟩
  · obtain ⟨reference, first, rest, heard, hid, -⟩ := heard_of_target? legal hasked htarget
    exact hserved (hlate reference first rest heard hid).1
  · obtain ⟨reference, first, rest, heard, hid, hlock⟩ := heard_of_target? legal hasked htarget
    exact ⟨⟨reference, first, hid, (hlate reference first rest heard hid).2⟩, hlock⟩

end Run

open ScriptedDaemon (execute)

/-- The ids of new containers were never in use if they were not the keys of containers. -/
theorem freshIds_of_keys {w : World ScriptedDaemon} {events : List Event}
    (h : ∀ i < events.length, ∀ event ∈ events[i]?, ∀ service ∈
      (w.after execute (events.take i)).service? execute event,
      ∀ id ∈ service.exchange.created?, ∀ j < i + 1,
        (w.daemonAfter execute (events.take j)).residents.find? id = none) :
    FreshIds execute ScriptedDaemon.resolve? w events := by
  intro past event service id hprefix hservice hnew before hbefore reference hresolve
  obtain ⟨future, rfl⟩ := hprefix
  have hlength : past.length < (past ++ [event] ++ future).length := by simp
  have htake : (past ++ [event] ++ future).take past.length = past := by simp
  have hbeforeTake : (past ++ [event] ++ future).take before.length = before := by
    obtain ⟨more, rfl⟩ := hbefore
    simp
  have hnone := h past.length hlength event (by simp) service (by rwa [htake]) id hnew
    before.length (Nat.lt_succ_of_le hbefore.length_le)
  rw [hbeforeTake] at hnone
  have hsome := ScriptedDaemon.isSome_find?_of_resolve? hresolve
  rw [hnone] at hsome
  cases hsome

/-- Whoever waited to stop `web` does nothing to the replacement. -/
theorem replacement_spared_updateThenStop :
    (∀ before, before <+: untilRemoved ++ [.serve 0 none, .deliver 0] →
      Tells execute ScriptedDaemon.resolve?
        ((start ⟨[]⟩ webDaemon).daemonAfter execute before)) ∧
    FreshIds execute ScriptedDaemon.resolve? (start ⟨[]⟩ webDaemon) updateThenStop ∧
    (start ⟨[]⟩ webDaemon).Legal execute updateThenStop ∧
    ∀ request ∈ (start ⟨[]⟩ webDaemon).asked execute 1 updateThenStop,
      request.target? ≠ some "9e2b" := by
  have htells : ∀ before, before <+: untilRemoved ++ [.serve 0 none, .deliver 0] →
      Tells execute ScriptedDaemon.resolve?
        ((start ⟨[]⟩ webDaemon).daemonAfter execute before) := by
    intro before hbefore reference info
    have hupdate : untilRemoved ++ [.serve 0 none, .deliver 0] <+: updateThenStop :=
      ⟨onceRemoved.drop 1, rfl⟩
    exact (lawful_updateThenStop.honest (hbefore.trans hupdate)).told
  have hfresh : FreshIds execute ScriptedDaemon.resolve? (start ⟨[]⟩ webDaemon) updateThenStop := by
    apply freshIds_of_keys
    decide +kernel
  have hlegal := legal_updateThenStop
  have hcreated : ((start ⟨[]⟩ webDaemon).after execute
      (untilRemoved ++ [.serve 0 none, .deliver 0])).service? execute (.serve 0 none) =
        some ⟨0, none, ⟨.create "web" ⟨"", {}, none⟩, .ok "9e2b"⟩⟩ := by
    with_unfolding_all rfl
  have hserved : (start ⟨[]⟩ webDaemon).served execute 1
      (untilRemoved ++ [.serve 0 none, .deliver 0]) ≠ [] := by
    decide +kernel
  have hsplit : updateThenStop =
      untilRemoved ++ [.serve 0 none, .deliver 0] ++ .serve 0 none :: onceRemoved.drop 2 := rfl
  rw [hsplit] at hfresh hlegal ⊢
  exact ⟨htells, hfresh, hlegal,
    (replacement_spared htells hfresh hlegal hcreated rfl 1).1 hserved⟩

/-- `web` is updated up to the request to create its replacement. -/
def untilCreated : List Event :=
  .begin 0 (.update "web") :: (List.replicate 5 [.serve 0 none, .deliver 0]).flatten

/-- Somebody restarts `web`, which is the name of the replacement by now. -/
def renamed : List Event :=
  [.begin 1 (.restart "web"), .serve 1 none, .deliver 1, .serve 1 none, .deliver 1]

/-- The replacement of `web` is restarted before it is started. -/
def restartRenamed : List Event := untilCreated ++ .serve 0 none :: renamed

theorem created_restartRenamed :
    ∃ service, ((start ⟨[]⟩ webDaemon).after execute untilCreated).service? execute
        (.serve 0 none) = some service ∧ service.number = 0 ∧
      service.exchange.created? = some "9e2b" :=
  ⟨_, by with_unfolding_all rfl, rfl, by with_unfolding_all rfl⟩

theorem keyed_webDaemon : webDaemon.Keyed := by
  intro entry hmem
  obtain rfl := List.mem_singleton.mp hmem
  rfl

theorem lawful_restartRenamed :
    Lawful execute ScriptedDaemon.resolve? (start ⟨[]⟩ webDaemon) restartRenamed := by
  refine @lawful_of_lives (start ⟨[]⟩ webDaemon) restartRenamed ["4f1a", "9e2b"] keyed_webDaemon
    (by decide +kernel) ?_
  intro id hid
  obtain rfl | rfl : id = "4f1a" ∨ id = "9e2b" := by simpa using hid
  · exact ⟨0, 10, by decide +kernel⟩
  · exact ⟨12, 18, by decide +kernel⟩

theorem legal_restartRenamed : (start ⟨[]⟩ webDaemon).Legal execute restartRenamed := by
  refine ⟨fun n op hmem => ?_, by decide +kernel⟩
  obtain ⟨-, rfl⟩ | ⟨-, rfl⟩ : n = 0 ∧ op = .update "web" ∨ n = 1 ∧ op = .restart "web" := by
    simpa [restartRenamed, untilCreated, renamed] using begin_mem_engineEvents.mp hmem
  · rfl
  · rfl

theorem freshIds_restartRenamed :
    FreshIds execute ScriptedDaemon.resolve? (start ⟨[]⟩ webDaemon) restartRenamed := by
  apply freshIds_of_keys
  decide +kernel

/-- **An update does not own its replacement**: the lock that it has is that of the old container,
and whoever looks the name up after the creation gets another one. -/
theorem not_owned_renamed :
    Lawful execute ScriptedDaemon.resolve? (start ⟨[]⟩ webDaemon) restartRenamed ∧
      FreshIds execute ScriptedDaemon.resolve? (start ⟨[]⟩ webDaemon) restartRenamed ∧
      (start ⟨[]⟩ webDaemon).Legal execute restartRenamed ∧
      ¬ Owned execute (start ⟨[]⟩ webDaemon) restartRenamed := by
  refine ⟨lawful_restartRenamed, freshIds_restartRenamed, legal_restartRenamed, fun howned => ?_⟩
  obtain ⟨service, hservice, hnumber, hnew⟩ := created_restartRenamed
  have hasked : ((start ⟨[]⟩ webDaemon).after execute (untilCreated ++ [.serve 0 none])).asked
      execute 1 renamed = [.inspect "web", .inspect "9e2b", .restart "9e2b" 10] := by
    with_unfolding_all rfl
  have hreturned :
      (start ⟨[]⟩ webDaemon).returned execute service.number restartRenamed = [] := by
    rw [hnumber]
    decide +kernel
  have hother : 1 ≠ service.number := by
    rw [hnumber]
    decide
  refine howned untilCreated (.serve 0 none) renamed service "9e2b" rfl hservice hnew hreturned 1
    hother (.restart "9e2b" 10) ?_ rfl
  rw [hasked]
  simp

end World

end Dockmaster
