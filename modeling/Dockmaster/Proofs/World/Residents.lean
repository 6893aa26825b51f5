import Dockmaster.Proofs.Operation.Plan
import Dockmaster.Proofs.World.Ownership

/-!
# What a request does to the containers

The daemon in memory either refuses a request and stays as it is, or carries it out
(`ScriptedDaemon.Effect`). A container stays as it is unless a request names it
(`Effect.find?_eq`), it vanishes only when it is removed (`Effect.removed?_of_vanished`), and it
appears only when it is created (`Effect.created?_of_appeared`).

A run is tidy (`World.Tidy`) if ids name nothing but their own containers, new ids were never in
use, and the daemon does not go on with the requests of cancelled operations. In such a run a
container that is gone stays gone (`World.Tidy.stays_gone`).
-/

namespace Dockmaster

/-- Whether a request only asks for something. -/
def Request.looks : Request → Bool
  | .list _ | .inspect _ | .listImages _ => true
  | _ => false

/-- The container that a request changes. -/
def Request.changes? : Request → Option String
  | .stop reference _ => some reference
  | .restart reference _ => some reference
  | .remove reference _ => some reference
  | .start reference => some reference
  | .connect _ container _ => some container
  | _ => none

theorem Request.changes?_of_looks {request : Request} (h : request.looks = true) :
    request.changes? = none := by
  cases request <;> first | rfl | cases h

namespace ScriptedDaemon

/-- **What a request does**: the exchange with the daemon, and the daemon afterwards. -/
inductive Effect (daemon : ScriptedDaemon) : Exchange → ScriptedDaemon → Prop
  /-- A request that fails does nothing. -/
  | refused {exchange : Exchange} {fault : DaemonFault} (failed : exchange.fault? = some fault) :
      Effect daemon exchange daemon
  /-- To ask for something does nothing. -/
  | asked {exchange : Exchange} (looks : exchange.request.looks = true) :
      Effect daemon exchange daemon
  /-- An image is fetched. -/
  | pulled (image : String) :
      Effect daemon ⟨.pull image, .ok ()⟩ { daemon with localImages := daemon.pulled image }
  /-- A container is stopped, restarted, started or connected. -/
  | altered {exchange : Exchange} {reference key : String} {resident changed : Resident}
      (done : exchange.fault? = none) (changes : exchange.request.changes? = some reference)
      (stays : ∀ force, exchange.request ≠ .remove reference force)
      (named : daemon.resolve? reference = some key)
      (found : daemon.residents.find? key = some resident)
      (name_eq : changed.info.name = resident.info.name)
      (running_eq : (∃ network aliases, exchange.request = .connect network reference aliases) →
        changed.running = resident.running) :
      Effect daemon exchange (daemon.put key changed)
  /-- A container is removed. -/
  | removed {reference key : String} (force : Bool) (named : daemon.resolve? reference = some key) :
      Effect daemon ⟨.remove reference force, .ok ()⟩
        { daemon with residents := daemon.residents.remove key }
  /-- A container is created. -/
  | created (name : String) (config : CreateConfig) (id : String) (nextIds : List String) :
      Effect daemon ⟨.create name config, .ok id⟩
        ({ daemon with nextIds }.put id (.created id name config))

/-- A change of one container either fails or is carried out. -/
theorem change_cases (daemon : ScriptedDaemon) (reference : String)
    (f : Resident → Except DaemonFault Resident) :
    (∃ fault, daemon.change reference f = (daemon, .error fault)) ∨
      ∃ key resident changed, daemon.resolve? reference = some key ∧
        daemon.residents.find? key = some resident ∧ f resident = .ok changed ∧
        daemon.change reference f = (daemon.put key changed, .ok ()) := by
  unfold change
  cases hlookup : daemon.lookup reference with
  | error fault => exact .inl ⟨fault, rfl⟩
  | ok found =>
    obtain ⟨key, resident⟩ := found
    obtain ⟨hnamed, hfound⟩ := lookup_eq_ok hlookup
    cases hchanged : f resident with
    | error fault => exact .inl ⟨fault, by simp only [hchanged]⟩
    | ok changed => exact .inr ⟨key, resident, changed, hnamed, hfound, hchanged, by
        simp only [hchanged]⟩

/-- A change of one container that keeps its name, as an answer to a request of which `exchange`
tells what becomes of it. -/
theorem effect_change (daemon : ScriptedDaemon) {reference : String}
    (f : Resident → Except DaemonFault Resident) (exchange : Except DaemonFault Unit → Exchange)
    (fails : ∀ fault, (exchange (.error fault)).fault? = some fault)
    (done : (exchange (.ok ())).fault? = none)
    (changes : (exchange (.ok ())).request.changes? = some reference)
    (stays : ∀ force, (exchange (.ok ())).request ≠ .remove reference force)
    (name_eq : ∀ resident changed, f resident = .ok changed →
      changed.info.name = resident.info.name)
    (running_eq :
      (∃ network aliases, (exchange (.ok ())).request = .connect network reference aliases) →
        ∀ resident changed, f resident = .ok changed → changed.running = resident.running) :
    Effect daemon (exchange (daemon.change reference f).2) (daemon.change reference f).1 := by
  rcases change_cases daemon reference f with
    ⟨fault, hfailed⟩ | ⟨key, resident, changed, hnamed, hfound, hok, hdone⟩
  · rw [hfailed]
    exact .refused (fails fault)
  · rw [hdone]
    exact .altered done changes stays hnamed hfound (name_eq _ _ hok)
      fun hconnect => running_eq hconnect _ _ hok

/-- **Every request has one of these effects.** -/
theorem effect_execute (daemon : ScriptedDaemon) (request : Request) :
    Effect daemon ⟨request, (daemon.execute request).2⟩ (daemon.execute request).1 := by
  cases request with
  | list all => exact .asked rfl
  | inspect reference => exact .asked rfl
  | listImages image => exact .asked rfl
  | pull image => exact .pulled image
  | stop reference grace =>
    refine effect_change daemon _ (⟨.stop reference grace, ·⟩) (fun _ => rfl) rfl rfl
      (fun _ => nofun) (fun resident changed h => ?_) nofun
    split at h <;> cases h
    rfl
  | restart reference grace =>
    refine effect_change daemon _ (⟨.restart reference grace, ·⟩) (fun _ => rfl) rfl rfl
      (fun _ => nofun) (fun resident changed h => ?_) nofun
    cases h
    rfl
  | remove reference force =>
    unfold execute
    dsimp only
    cases hlookup : daemon.lookup reference with
    | error fault => exact .refused rfl
    | ok found =>
      obtain ⟨key, resident⟩ := found
      dsimp only
      split_ifs
      · exact .refused rfl
      · exact .removed force (lookup_eq_ok hlookup).1
  | create name config =>
    unfold execute
    dsimp only
    split_ifs
    · exact .refused rfl
    · exact .created name config _ _
  | start reference =>
    refine effect_change daemon _ (⟨.start reference, ·⟩) (fun _ => rfl) rfl rfl
      (fun _ => nofun) (fun resident changed h => ?_) nofun
    cases h
    rfl
  | connect network container aliases =>
    refine effect_change daemon _ (⟨.connect network container aliases, ·⟩) (fun _ => rfl) rfl rfl
      (fun _ => nofun) (fun resident changed h => ?_) fun _ resident changed h => ?_
    · cases h
      rfl
    · cases h
      rfl

section Effect

variable {daemon after : ScriptedDaemon} {exchange : Exchange} {key : String}

theorem Effect.eq_of_fault? (effect : Effect daemon exchange after) {fault : DaemonFault}
    (failed : exchange.fault? = some fault) : after = daemon := by
  cases effect with
  | refused _ => rfl
  | asked looks => rfl
  | pulled image => cases failed
  | altered done => rw [done] at failed; cases failed
  | removed force named => cases failed
  | created name config id nextIds => cases failed

theorem Effect.eq_of_looks (effect : Effect daemon exchange after)
    (looks : exchange.request.looks = true) : after = daemon := by
  cases effect with
  | refused failed => rfl
  | asked _ => rfl
  | pulled image => cases looks
  | altered done changes =>
    rw [Request.changes?_of_looks looks] at changes
    cases changes
  | removed force named => cases looks
  | created name config id nextIds => cases looks

/-- **A container stays as it is** unless a request names it or creates it. -/
theorem Effect.find?_eq (effect : Effect daemon exchange after)
    (spared : ∀ reference, exchange.request.changes? = some reference →
      daemon.resolve? reference ≠ some key)
    (old : exchange.created? ≠ some key) :
    after.residents.find? key = daemon.residents.find? key := by
  cases effect with
  | refused failed => rfl
  | asked looks => rfl
  | pulled image => rfl
  | altered done changes stays named found =>
    apply Directory.find?_put_of_ne
    rintro rfl
    exact spared _ changes named
  | removed force named =>
    apply Directory.find?_remove_of_ne
    rintro rfl
    exact spared _ rfl named
  | created name config id nextIds =>
    apply Directory.find?_put_of_ne
    rintro rfl
    exact old rfl

/-- **A container vanishes only when it is removed.** -/
theorem Effect.removed?_of_vanished (effect : Effect daemon exchange after)
    (there : (daemon.residents.find? key).isSome) (gone : after.residents.find? key = none) :
    ∃ reference, exchange.removed? = some reference ∧ daemon.resolve? reference = some key := by
  have hgone : ¬ (after.residents.find? key).isSome := by simp [gone]
  cases effect with
  | refused failed => exact absurd there hgone
  | asked looks => exact absurd there hgone
  | pulled image => exact absurd there hgone
  | altered done changes stays named found =>
    exact absurd (Directory.isSome_find?_put there _ _) hgone
  | @removed reference other force named =>
    by_cases hkey : key = other
    · subst hkey
      exact ⟨reference, rfl, named⟩
    · -- another container was removed
      rw [← Directory.find?_remove_of_ne hkey] at there
      exact absurd there hgone
  | created name config id nextIds => exact absurd (Directory.isSome_find?_put there _ _) hgone

/-- **A container appears only when it is created.** -/
theorem Effect.created?_of_appeared (effect : Effect daemon exchange after)
    (missing : daemon.residents.find? key = none) (there : (after.residents.find? key).isSome) :
    exchange.created? = some key := by
  by_contra hold
  -- a request names only containers that are there
  have hsame := effect.find?_eq (fun reference _ hnamed => by
    have hsome := isSome_find?_of_resolve? hnamed
    rw [missing] at hsome
    cases hsome) hold
  rw [hsame, missing] at there
  cases there

theorem Effect.gone_of_removed? (effect : Effect daemon exchange after) {reference : String}
    (removed : exchange.removed? = some reference) :
    ∃ key, daemon.resolve? reference = some key ∧ after.residents.find? key = none := by
  obtain ⟨force, rfl⟩ := Exchange.removed?_eq_some removed
  cases effect with
  | refused failed => cases failed
  | asked looks => cases looks
  | altered done changes stays =>
    obtain rfl := Option.some.inj changes
    exact absurd rfl (stays force)
  | removed force named => exact ⟨_, named, Directory.find?_remove_self _ _⟩

/-- A container that is created has the name that was asked for, and does not run. -/
theorem Effect.find?_of_created? (effect : Effect daemon exchange after) {id : String}
    (created : exchange.created? = some id) :
    ∃ name config, exchange.request = .create name config ∧
      after.residents.find? id = some (.created id name config) := by
  obtain ⟨name, config, rfl⟩ := Exchange.created?_eq_some created
  refine ⟨name, config, rfl, ?_⟩
  cases effect with
  | refused failed => cases failed
  | asked looks => cases looks
  | altered done changes => cases changes
  | created name config id nextIds => exact Directory.find?_put_self _ _ _

/-- Whether there is a container that has a name and does not run. -/
def Idle (daemon : ScriptedDaemon) (key name : String) : Prop :=
  ∃ resident, daemon.residents.find? key = some resident ∧ resident.running = false ∧
    resident.info.name = some ("/" ++ name)

/-- A container that is created does not run. -/
theorem Effect.idle_of_created (effect : Effect daemon exchange after) {name id : String}
    {config : CreateConfig} (h : exchange = ⟨.create name config, .ok id⟩) :
    after.Idle id name := by
  obtain ⟨name', config', hrequest, hfind⟩ := effect.find?_of_created? (by rw [h]; rfl)
  rw [h] at hrequest
  obtain ⟨rfl, rfl⟩ := Request.create.inj hrequest
  exact ⟨_, hfind, rfl, rfl⟩

/-- **A container that does not run** stays so, and keeps its name, if it is only connected to
networks. -/
theorem Effect.idle (effect : Effect daemon exchange after) {name : String}
    (idle : daemon.Idle key name) (old : exchange.created? ≠ some key)
    (connects : exchange.fault? = none → ∀ reference,
      exchange.request.changes? = some reference → daemon.resolve? reference = some key →
        ∃ network aliases, exchange.request = .connect network reference aliases) :
    after.Idle key name := by
  obtain ⟨resident, hfind, hidle, hname⟩ := idle
  cases effect with
  | refused failed => exact ⟨resident, hfind, hidle, hname⟩
  | asked looks => exact ⟨resident, hfind, hidle, hname⟩
  | pulled image => exact ⟨resident, hfind, hidle, hname⟩
  | @altered _ reference other before changed done changes stays named found name_eq running_eq =>
    by_cases hkey : key = other
    · subst hkey
      obtain rfl := Option.some.inj (found.symm.trans hfind)
      refine ⟨changed, Directory.find?_put_self _ _ _, ?_, name_eq.trans hname⟩
      rw [running_eq (connects done reference changes named), hidle]
    · -- another container was changed
      exact ⟨resident, (Directory.find?_put_of_ne hkey _ _).trans hfind, hidle, hname⟩
  | @removed reference other force named =>
    have hkey : key ≠ other := by
      rintro rfl
      obtain ⟨network, aliases, hconnect⟩ := connects rfl reference rfl named
      cases hconnect
    exact ⟨resident, (Directory.find?_remove_of_ne hkey _).trans hfind, hidle, hname⟩
  | created name' config id nextIds =>
    have hkey : key ≠ id := fun h => old (by rw [h]; rfl)
    exact ⟨resident, (Directory.find?_put_of_ne hkey _ _).trans hfind, hidle, hname⟩

end Effect

end ScriptedDaemon

namespace World

open ScriptedDaemon (execute)

/-! ### Services -/

/-- What serves nothing leaves the daemon as it is. -/
theorem daemon_step_of_service?_eq_none {σ : Type} {server : Operation.Server σ} {w : World σ}
    {event : Event} (h : w.service? server event = none) :
    (w.step server event).daemon = w.daemon := by
  have turn := turn_step server w event
  rw [h] at turn
  generalize w.step server event = after, w.engineEvent? event = driven at turn ⊢
  cases turn <;> rfl

/-- **A service has one of the effects**: a request that is made to fail is refused. -/
theorem effect_of_service {w : World ScriptedDaemon} {event : Event} {service : Service}
    (h : w.service? execute event = some service) :
    ScriptedDaemon.Effect w.daemon service.exchange (w.step execute event).daemon := by
  obtain ⟨request, -, hexchange, hdaemon⟩ := service?_eq_some h
  rw [hexchange, hdaemon]
  cases service.fault with
  | some fault => exact .refused rfl
  | none => exact ScriptedDaemon.effect_execute _ request

/-! ### Tidy runs -/

/-- **The assumptions on a run** with the daemon in memory. -/
structure Tidy (w : World ScriptedDaemon) (events : List Event) : Prop where
  /-- The containers are kept under the ids in their records. -/
  keyed : w.daemon.Keyed
  /-- The id of a container never names another one. -/
  own : ∀ {past later id other}, past <+: later → later <+: events →
    ((w.daemonAfter execute past).residents.find? id).isSome →
    (w.daemonAfter execute later).resolve? id = some other → other = id
  /-- The ids of new containers were never in use. -/
  fresh : FreshIds execute ScriptedDaemon.resolve? w events
  /-- A request of a cancelled operation is not served any more. So it is if none is cancelled. -/
  withdrawn : ∀ {past event service}, past ++ [event] <+: events →
    (w.after execute past).service? execute event = some service → .cancel service.number ∉ past

section Tidy

variable {w : World ScriptedDaemon} {events past later : List Event} {key : String}

theorem Tidy.of_isPrefix (h : Tidy w events) (hpast : past <+: events) : Tidy w past where
  keyed := h.keyed
  own hp hl := h.own hp (hl.trans hpast)
  fresh before event service id hb := h.fresh before event service id (hb.trans hpast)
  withdrawn hp := h.withdrawn (hp.trans hpast)

/-- A lawful run in which new ids were never in use and nothing is cancelled is tidy. -/
theorem Tidy.of_lawful (keyed : w.daemon.Keyed)
    (lawful : Lawful execute ScriptedDaemon.resolve? w events)
    (fresh : FreshIds execute ScriptedDaemon.resolve? w events)
    (uncancelled : ∀ n, .cancel n ∉ events) : Tidy w events where
  keyed := keyed
  own hpast hlater hthere :=
    lawful.own hpast hlater (ScriptedDaemon.resolve?_of_isSome_find? hthere)
  fresh := fresh
  withdrawn hpast _ hcancel :=
    uncancelled _ (hpast.subset (List.mem_append_left _ hcancel))

theorem Tidy.tells (h : Tidy w events) (past : List Event) :
    Tells execute ScriptedDaemon.resolve? (w.daemonAfter execute past) := by
  have hkeyed : (w.daemonAfter execute past).Keyed :=
    daemonAfter_induction (P := ScriptedDaemon.Keyed)
      (fun _ request hs => ScriptedDaemon.keyed_execute hs request) h.keyed past
  intro reference info hinfo
  exact (ScriptedDaemon.honest_execute hkeyed).told hinfo

theorem Tidy.gone_step (h : Tidy w events) {event : Event} (hlater : later ++ [event] <+: events)
    (hpast : past <+: later) (there : ((w.daemonAfter execute past).residents.find? key).isSome)
    (gone : (w.daemonAfter execute later).residents.find? key = none) :
    (w.daemonAfter execute (later ++ [event])).residents.find? key = none := by
  rw [daemonAfter_snoc]
  cases hservice : (w.after execute later).service? execute event with
  | none =>
    rw [daemon_step_of_service?_eq_none hservice]
    exact gone
  | some service =>
    by_contra hback
    -- it would have to be created, and its id was in use
    have hcreated := (effect_of_service hservice).created?_of_appeared gone
      (Option.isSome_iff_ne_none.mpr hback)
    exact h.fresh later event service key hlater hservice hcreated past hpast key
      (ScriptedDaemon.resolve?_of_isSome_find? there)

/-- **A container that is gone stays gone.** -/
theorem Tidy.stays_gone (h : Tidy w events) {future : List Event}
    (hevents : later ++ future <+: events) (hpast : past <+: later)
    (there : ((w.daemonAfter execute past).residents.find? key).isSome)
    (gone : (w.daemonAfter execute later).residents.find? key = none) :
    (w.daemonAfter execute (later ++ future)).residents.find? key = none := by
  induction future using List.reverseRecOn with
  | nil => rwa [List.append_nil]
  | append_singleton before event ih =>
    rw [← List.append_assoc] at hevents ⊢
    have hbefore : later ++ before <+: events := (List.prefix_append _ _).trans hevents
    exact h.gone_step hevents (hpast.trans (List.prefix_append _ _)) there (ih hbefore)

/-- **A container that does not run stays so** as long as it is only connected to networks. -/
theorem Tidy.stays_idle {future : List Event} {name : String} (h : Tidy w (later ++ future))
    (idle : (w.daemonAfter execute later).Idle key name)
    (connects : ∀ past event service, later <+: past → past ++ [event] <+: later ++ future →
      (w.after execute past).service? execute event = some service →
      service.exchange.fault? = none → ∀ reference,
        service.exchange.request.changes? = some reference →
        (w.daemonAfter execute past).resolve? reference = some key →
          ∃ network aliases, service.exchange.request = .connect network reference aliases) :
    (w.daemonAfter execute (later ++ future)).Idle key name := by
  -- the container is there from the beginning, so nobody creates it anew
  obtain ⟨resident, hfind, -⟩ := id idle
  have hnamed : (w.daemonAfter execute later).resolve? key = some key :=
    ScriptedDaemon.resolve?_of_isSome_find? (by rw [hfind]; rfl)
  induction future using List.reverseRecOn with
  | nil => rwa [List.append_nil]
  | append_singleton before event ih =>
    rw [← List.append_assoc] at h connects ⊢
    have hbefore : later ++ before <+: later ++ before ++ [event] := List.prefix_append _ _
    have hidle := ih (h.of_isPrefix hbefore) fun past last service hpast hlast =>
      connects past last service hpast (hlast.trans hbefore)
    rw [daemonAfter_snoc]
    cases hservice : (w.after execute (later ++ before)).service? execute event with
    | none =>
      rw [daemon_step_of_service?_eq_none hservice]
      exact hidle
    | some service =>
      have hlater := List.prefix_append later before
      exact (effect_of_service hservice).idle hidle
        (fun hcreated => h.fresh _ event service key List.prefix_rfl hservice hcreated later hlater
          key hnamed)
        (connects _ event service hlater List.prefix_rfl hservice)

end Tidy

end World

end Dockmaster
