import Dockmaster.Proofs.World.Breakage
import Dockmaster.Proofs.World.Custody

/-!
# What the failure of an update tells of the daemon

From the removal of its container to the start of the replacement an update leaves the caller
without a container if it fails. The stage in its error says whether it has come to that
(`failure_tells`): the old container is gone if and only if the stage is past the removal.

The one direction holds because a container that is removed stays gone. The other one needs the
lock: since the second inspection found the container, only a removal can have taken it away, and
whoever removes a container has the lock of its id (`Tidy.of_removal`); but the update has had this
lock from its second inspection on, so it was the update that removed the container
(`removed_of_gone`).

What else the stage says is read off what the update has asked for (`leaves_of_pull`,
`leaves_of_early`). A replacement that cannot be started is there as it was created, connected to
some networks at most, for its id was not in use before and nobody else has named it
(`idle_of_start`).
-/

namespace Dockmaster

namespace World

open ScriptedDaemon (execute)

/-- Whether all that an operation is served leaves the daemon in a relation to what it was. -/
def Leaves (w : World ScriptedDaemon) (n : Nat) (events : List Event)
    (relation : ScriptedDaemon → ScriptedDaemon → Prop) : Prop :=
  ∀ past event service, past ++ [event] <+: events →
    (w.after execute past).service? execute event = some service → service.number = n →
    relation (w.daemonAfter execute past) (w.daemonAfter execute (past ++ [event]))

/-- Whether no other operation asks for a change of a container by any of its names. -/
def Untouched (w : World ScriptedDaemon) (n : Nat) (id : String) (events : List Event) : Prop :=
  ∀ past event service reference, past ++ [event] <+: events →
    (w.after execute past).service? execute event = some service → service.number ≠ n →
    service.exchange.request.changes? = some reference →
    (w.daemonAfter execute past).resolve? reference ≠ some id

section Service

variable {w : World ScriptedDaemon} {events past : List Event} {event : Event} {service : Service}
  {n : Nat}

theorem mem_served_of_service (hpast : past ++ [event] <+: events)
    (h : (w.after execute past).service? execute event = some service) :
    service.exchange ∈ w.served execute service.number events := by
  obtain ⟨future, rfl⟩ := hpast
  rw [served_append, served_append, served_singleton, h]
  simp

/-- What each request of an operation does, they all do. -/
theorem leaves_of_served (allowed : Exchange → Prop)
    {relation : ScriptedDaemon → ScriptedDaemon → Prop}
    (served : ∀ exchange ∈ w.served execute n events, allowed exchange)
    (effect : ∀ {daemon exchange after}, ScriptedDaemon.Effect daemon exchange after →
      allowed exchange → relation daemon after) : w.Leaves n events relation := by
  rintro past event service hpast hservice rfl
  rw [daemonAfter_snoc]
  exact effect (effect_of_service hservice) (served _ (mem_served_of_service hpast hservice))

/-- The two inspections of an update change nothing, so only what comes after them counts. -/
theorem leaves_of_rest (allowed : Exchange → Prop)
    {relation : ScriptedDaemon → ScriptedDaemon → Prop} (same : ∀ daemon, relation daemon daemon)
    {first second : String} {told found : Except DaemonFault InspectRecord} {rest : List Exchange}
    (served : w.served execute n events =
      ⟨.inspect first, told⟩ :: ⟨.inspect second, found⟩ :: rest)
    (later : ∀ exchange ∈ rest, allowed exchange)
    (effect : ∀ {daemon exchange after}, ScriptedDaemon.Effect daemon exchange after →
      allowed exchange → relation daemon after) : w.Leaves n events relation := by
  refine leaves_of_served (fun exchange => exchange.request.looks = true ∨ allowed exchange)
    (fun exchange hmem => ?_) fun {daemon _ _} heffect hallowed => ?_
  · rw [served, List.mem_cons, List.mem_cons] at hmem
    rcases hmem with rfl | rfl | hmem
    · exact .inl rfl
    · exact .inl rfl
    · exact .inr (later exchange hmem)
  · rcases hallowed with hlooks | hallowed
    · rw [heffect.eq_of_looks hlooks]
      exact same daemon
    · exact effect heffect hallowed

end Service

section Run

variable {guard : Guard} {daemon : ScriptedDaemon} {events past future : List Event} {n : Nat}

/-- What a successful inspection told was the key of a container, which never names another
one. -/
theorem Tidy.key_of_served (tidy : Tidy (start guard daemon) events) {reference : String}
    {first : InspectRecord}
    (served : ⟨.inspect reference, .ok first⟩ ∈ (start guard daemon).served execute n past) :
    ∃ before, first.id = some (first.id.getD reference) ∧ before <+: past ∧
      (((start guard daemon).daemonAfter execute before).residents.find?
        (first.id.getD reference)).isSome ∧
      ∀ {later other}, before <+: later → later <+: events →
        ((start guard daemon).daemonAfter execute later).resolve? (first.id.getD reference) =
          some other → other = first.id.getD reference := by
  have htells : ∀ before, before <+: past →
      Tells execute ScriptedDaemon.resolve? ((start guard daemon).daemonAfter execute before) :=
    fun before _ => tidy.tells before
  obtain ⟨before, id, hbefore, hid, hresolve⟩ := resolve_of_served htells served
  have hthere := ScriptedDaemon.isSome_find?_of_resolve? hresolve
  rw [hid, Option.getD_some]
  exact ⟨before, rfl, hbefore, hthere, fun hlater hevents => tidy.own hlater hevents hthere⟩

/-- **A container is removed under its lock**, and by its id. -/
theorem Tidy.of_removal {event : Event} (tidy : Tidy (start guard daemon) (past ++ [event]))
    (legal : (start guard daemon).Legal execute past) {service : Service}
    (hservice : ((start guard daemon).after execute past).service? execute event = some service)
    {id key : String} (hremoved : service.exchange.removed? = some id)
    (named : ((start guard daemon).daemonAfter execute past).resolve? id = some key) :
    key = id ∧ (∃ before, before <+: past ∧
        (((start guard daemon).daemonAfter execute before).residents.find? id).isSome) ∧
      ((start guard daemon).after execute past).engine.locks.owner? id = some service.number := by
  obtain ⟨force, hexchange⟩ := Exchange.removed?_eq_some hremoved
  obtain ⟨request, hflight, hanswer, -⟩ := service?_eq_some hservice
  rw [hexchange] at hanswer
  obtain ⟨rfl, -⟩ := Exchange.mk.inj hanswer
  have huncancelled := tidy.withdrawn List.prefix_rfl hservice
  obtain ⟨reference, first, rfl, hserved, howner⟩ :=
    owner?_of_flight legal hflight huncancelled rfl
  obtain ⟨before, -, hbefore, hthere, hkey⟩ := tidy.key_of_served hserved
  exact ⟨hkey hbefore (List.prefix_append _ _) named, ⟨before, hbefore, hthere⟩, howner⟩

/-- **A container that was removed is gone.** -/
theorem gone_of_removed (tidy : Tidy (start guard daemon) events)
    (legal : (start guard daemon).Legal execute events) {exchange : Exchange} {id : String}
    (served : exchange ∈ (start guard daemon).served execute n events)
    (hremoved : exchange.removed? = some id) :
    ((start guard daemon).daemonAfter execute events).residents.find? id = none := by
  obtain ⟨fault, hmem⟩ := exists_service_of_served served
  obtain ⟨past, event, future, rfl, hservice⟩ := exists_moment_of_service hmem
  have hevents : past ++ event :: future = past ++ [event] ++ future := List.append_cons ..
  rw [hevents] at tidy legal ⊢
  obtain ⟨key, hnamed, hgone⟩ := (effect_of_service hservice).gone_of_removed? hremoved
  rw [← daemonAfter_snoc] at hgone
  obtain ⟨rfl, ⟨before, hbefore, hthere⟩, -⟩ :=
    (tidy.of_isPrefix (List.prefix_append _ _)).of_removal legal.of_append.of_append hservice
      hremoved hnamed
  exact tidy.stays_gone List.prefix_rfl (hbefore.trans (List.prefix_append _ _)) hthere hgone

section Returned

variable {last : Event} {outcome : Outcome} {action : Lifecycle.Action} {reference : String}
  {first info : InspectRecord} {rest : List Exchange}

/-- **Who removes a container that an operation has the lock of**: if a container vanishes between
the second inspection of an operation and its return, the operation has removed it. -/
theorem number_of_vanished {between more : List Event} {next : Event} {service : Service}
    {request : Request}
    (tidy : Tidy (start guard daemon) (past ++ (between ++ next :: more)))
    (legal : (start guard daemon).Legal execute (past ++ (between ++ next :: more)))
    (begun : .begin n (.manage action reference .resolving) ∈ past ++ (between ++ next :: more))
    (returns : outcome ∈ ((start guard daemon).after execute
      (past ++ (between ++ next :: more))).returned execute n [last])
    (served : (start guard daemon).served execute n past = [⟨.inspect reference, .ok first⟩])
    (flight : ((start guard daemon).after execute past).flights n = some ⟨request, none⟩)
    (hservice : ((start guard daemon).after execute (past ++ between)).service? execute next =
      some service)
    (there : (((start guard daemon).daemonAfter execute (past ++ between)).residents.find?
      (first.id.getD reference)).isSome)
    (gone : ((start guard daemon).daemonAfter execute (past ++ between ++ [next])).residents.find?
      (first.id.getD reference) = none) :
    service.number = n ∧ service.exchange.removed? = some (first.id.getD reference) := by
  have hevents : past ++ (between ++ next :: more) = past ++ between ++ [next] ++ more := by simp
  rw [daemonAfter_snoc] at gone
  obtain ⟨id, hremoved, hnamed⟩ :=
    (effect_of_service hservice).removed?_of_vanished there gone
  have howner := owner?_until_returned legal begun served flight returns
  rw [hevents] at tidy legal
  obtain ⟨rfl, -, howner'⟩ := (tidy.of_isPrefix (List.prefix_append _ _)).of_removal
    legal.of_append.of_append hservice hremoved hnamed
  exact ⟨Option.some.inj (howner'.symm.trans howner), hremoved⟩

/-- **A container that is gone was removed**: if an operation finds its container at the second
inspection, and the container is gone when the operation returns, the operation has removed it. -/
theorem removed_of_gone (tidy : Tidy (start guard daemon) past)
    (legal : (start guard daemon).Legal execute past)
    (begun : .begin n (.manage action reference .resolving) ∈ past)
    (returns : outcome ∈ ((start guard daemon).after execute past).returned execute n [last])
    (served : (start guard daemon).served execute n past = ⟨.inspect reference, .ok first⟩ ::
      ⟨.inspect (first.id.getD reference), .ok info⟩ :: rest)
    (gone : ((start guard daemon).daemonAfter execute past).residents.find?
      (first.id.getD reference) = none) :
    ∃ exchange ∈ (start guard daemon).served execute n past,
      exchange.removed? = some (first.id.getD reference) := by
  have hsplit : (start guard daemon).served execute n past = [⟨.inspect reference, .ok first⟩] ++
      ⟨.inspect (first.id.getD reference), .ok info⟩ :: rest := served
  obtain ⟨before, event, future, service, rfl, hone, hservice, rfl, hexchange⟩ :=
    exists_moment_of_served hsplit
  obtain ⟨request, hflight, hanswer, -⟩ := service?_eq_some hservice
  -- from the second inspection on the container is there, unless the operation has removed it
  suffices hkept : ∀ later, later <+: event :: future →
      (∃ exchange ∈ (start guard daemon).served execute service.number (before ++ later),
        exchange.removed? = some (first.id.getD reference)) ∨
      (((start guard daemon).daemonAfter execute (before ++ later)).residents.find?
        (first.id.getD reference)).isSome by
    rcases hkept _ List.prefix_rfl with hremoved | hthere
    · exact hremoved
    · rw [gone] at hthere
      cases hthere
  intro later hlater
  induction later using List.reverseRecOn with
  | nil =>
    right
    rw [List.append_nil]
    rw [hexchange] at hanswer
    obtain ⟨rfl, hinfo⟩ := Exchange.mk.inj hanswer
    obtain ⟨-, hok⟩ := attend_eq_ok (eq_of_heq hinfo).symm
    obtain ⟨id, hnamed, -⟩ := tidy.tells before _ _ hok
    have hmem : ⟨.inspect reference, .ok first⟩ ∈
        (start guard daemon).served execute service.number before := by
      rw [hone]
      exact List.mem_singleton_self _
    obtain ⟨earlier, -, hearlier, -, hkey⟩ := tidy.key_of_served hmem
    obtain rfl := hkey hearlier (List.prefix_append _ _) hnamed
    exact ScriptedDaemon.isSome_find?_of_resolve? hnamed
  | append_singleton between next ih =>
    rcases ih ((List.prefix_append _ _).trans hlater) with ⟨exchange, hmem, hremoved⟩ | hthere
    · left
      rw [← List.append_assoc, served_append]
      exact ⟨exchange, List.mem_append_left _ hmem, hremoved⟩
    · rw [← List.append_assoc]
      cases hnext : ((start guard daemon).after execute (before ++ between)).service? execute next
        with
      | none =>
        right
        rw [daemonAfter_snoc, daemon_step_of_service?_eq_none hnext]
        exact hthere
      | some other =>
        refine or_iff_not_imp_right.mpr fun hgone => ?_
        obtain ⟨more, hmore⟩ := hlater
        rw [List.append_assoc] at hmore
        rw [← hmore] at tidy legal begun returns
        obtain ⟨hnumber, hremoved⟩ := number_of_vanished tidy legal begun returns hone hflight
          hnext hthere (Option.not_isSome_iff_eq_none.mp hgone)
        refine ⟨other.exchange, ?_, hremoved⟩
        rw [← hnumber]
        exact mem_served_of_service List.prefix_rfl hnext

/-- What makes an operation return is nothing that the daemon does. -/
theorem service?_of_returned {w : World ScriptedDaemon}
    (returns : outcome ∈ w.returned execute n [last]) : w.service? execute last = none := by
  unfold returned at returns
  rw [engineEvents_singleton] at returns
  have turn := turn_step execute w last
  generalize w.step execute last = after, w.engineEvent? last = driven,
    w.service? execute last = service at turn returns ⊢
  cases turn with
  | served fault flight => cases returns
  | _ => rfl

end Returned

/-- **A replacement that was not started** is there, under its name, and does not run, unless
somebody else has asked for something else. -/
theorem idle_of_start {target : Lifecycle.Target} {reference : String}
    {first info : InspectRecord} {rest : List Exchange}
    (tidy : Tidy (start guard daemon) past) (hid : first.id.getD reference = target.fullId)
    (served : (start guard daemon).served execute n past = ⟨.inspect reference, .ok first⟩ ::
      ⟨.inspect target.fullId, .ok info⟩ :: rest)
    (broken : Lifecycle.Broken target .start rest) :
    ∃ newId config, ⟨.create target.name config, .ok newId⟩ ∈ rest ∧
      ((start guard daemon).Untouched n newId past →
        ((start guard daemon).daemonAfter execute past).Idle newId target.name) := by
  obtain ⟨newId, config, hcreate, hacts⟩ := broken.acts_of_start
  refine ⟨newId, config, hcreate, fun untouched => ?_⟩
  obtain ⟨done, more, rfl⟩ := List.append_of_mem hcreate
  rw [← List.cons_append, ← List.cons_append] at served
  obtain ⟨before, event, future, service, rfl, hdone, hservice, rfl, hexchange⟩ :=
    exists_moment_of_served served
  have hmem : ⟨.inspect reference, .ok first⟩ ∈
      (start guard daemon).served execute service.number before := by
    rw [hdone]
    exact List.mem_cons_self
  have hnew : service.exchange.created? = some newId := by
    rw [hexchange]
    rfl
  have hother : target.fullId ≠ newId := by
    rw [← hid]
    exact id_ne_of_served (fun before _ => tidy.tells before) tidy.fresh hservice hnew hmem
  obtain ⟨earlier, -, hearlier, -, hkey⟩ := tidy.key_of_served hmem
  rw [hid] at hkey
  have hidle := (effect_of_service hservice).idle_of_created hexchange
  rw [← daemonAfter_snoc] at hidle
  have hevents : before ++ event :: future = before ++ [event] ++ future := List.append_cons ..
  rw [hevents] at tidy untouched served hkey ⊢
  refine tidy.stays_idle hidle fun past next act hpast hnext hact hok named changes hnamed => ?_
  by_cases hnumber : act.number = service.number
  · have hserved := mem_served_of_service hnext hact
    rw [hnumber, served] at hserved
    rcases List.mem_cons.mp hserved with hfirst | hserved
    · rw [hfirst] at changes
      cases changes
    rcases List.mem_cons.mp hserved with hsecond | hserved
    · rw [hsecond] at changes
      cases changes
    rcases hacts _ hserved hok named changes with rfl | hconnect
    · -- the id of the old container does not name the replacement
      have hlater : earlier <+: past :=
        (hearlier.trans (List.prefix_append _ _)).trans hpast
      have hevents := (List.prefix_append past [next]).trans hnext
      exact absurd (hkey hlater hevents hnamed).symm hother
    · exact hconnect
  · exact absurd hnamed (untouched past next act named hnext hact hnumber changes)

section Failure

variable {last : Event} {outcome : Outcome} {action : Lifecycle.Action} {reference : String}
  {first info : InspectRecord} {rest : List Exchange} {target : Lifecycle.Target}
  {stage : UpdateStage}

/-- **The removal window**: the container of an update that fails in a stage is gone if and only if
the stage is past the removal. -/
theorem gone_iff (tidy : Tidy (start guard daemon) past)
    (legal : (start guard daemon).Legal execute past)
    (begun : .begin n (.manage action reference .resolving) ∈ past)
    (returns : outcome ∈ ((start guard daemon).after execute past).returned execute n [last])
    (hid : first.id.getD reference = target.fullId)
    (served : (start guard daemon).served execute n past = ⟨.inspect reference, .ok first⟩ ::
      ⟨.inspect target.fullId, .ok info⟩ :: rest)
    (broken : Lifecycle.Broken target stage rest) :
    ((start guard daemon).daemonAfter execute past).residents.find? target.fullId = none ↔
      stage.isPastRemoval = true := by
  rw [← broken.removed_iff]
  constructor
  · intro gone
    rw [← hid] at served gone
    obtain ⟨exchange, hmem, hremoved⟩ := removed_of_gone tidy legal begun returns served gone
    rw [served, List.mem_cons, List.mem_cons] at hmem
    rcases hmem with rfl | rfl | hmem
    · cases hremoved
    · cases hremoved
    · exact ⟨exchange, hmem, hid ▸ hremoved⟩
  · rintro ⟨exchange, hmem, hremoved⟩
    refine gone_of_removed tidy legal (n := n) ?_ hremoved
    rw [served]
    exact List.mem_cons_of_mem _ (List.mem_cons_of_mem _ hmem)

theorem leaves_of_pull {w : World ScriptedDaemon} {fullId : String}
    (served : w.served execute n events = ⟨.inspect reference, .ok first⟩ ::
      ⟨.inspect fullId, .ok info⟩ :: rest)
    (broken : Lifecycle.Broken target .pull rest) :
    w.Leaves n events fun before after => after = before := by
  refine leaves_of_rest _ (fun _ => rfl) served broken.fault?_of_pull fun effect hfailed => ?_
  obtain ⟨fault, hfault⟩ := Option.ne_none_iff_exists'.mp hfailed
  exact effect.eq_of_fault? hfault

theorem leaves_of_early {w : World ScriptedDaemon} {fullId : String}
    (served : w.served execute n events = ⟨.inspect reference, .ok first⟩ ::
      ⟨.inspect fullId, .ok info⟩ :: rest)
    (broken : Lifecycle.Broken target stage rest) (early : stage ≠ .start) :
    w.Leaves n events fun before after =>
      ∀ id, before.residents.find? id = none → after.residents.find? id = none := by
  refine leaves_of_rest _ (fun _ _ missing => missing) served (broken.created?_eq_none early)
    fun effect hcreates id missing => ?_
  by_contra hthere
  have hcreated := effect.created?_of_appeared missing (Option.isSome_iff_ne_none.mpr hthere)
  rw [hcreates] at hcreated
  cases hcreated

end Failure

/-- **The failure of an update tells the truth.** If an update fails in a stage, its container is
gone if and only if the stage is past the removal. An update that cannot pull the image has changed
nothing, one that cannot create the replacement has created nothing, and one that cannot start the
replacement leaves it there, under the name of the old container and not running, unless somebody
else asks for something else. An update that fails outside of any stage has changed nothing. -/
theorem failure_tells {last : Event} {reference : String}
    (tidy : Tidy (start guard daemon) (past ++ [last]))
    (legal : (start guard daemon).Legal execute (past ++ [last]))
    (begun : .begin n (.update reference) ∈ past) {e : ServiceError}
    (returns : .error e ∈ ((start guard daemon).after execute past).returned execute n [last]) :
    (∀ container stage source, e = .updateFailed container stage source →
      ∃ fullId first info rest, first.id = some fullId ∧
        (start guard daemon).served execute n (past ++ [last]) =
          ⟨.inspect reference, .ok first⟩ :: ⟨.inspect fullId, .ok info⟩ :: rest ∧
        container = stripSlash (info.name.getD "") ∧
        (((start guard daemon).daemonAfter execute (past ++ [last])).residents.find? fullId = none ↔
          stage.isPastRemoval = true) ∧
        (stage = .pull → (start guard daemon).Leaves n (past ++ [last]) fun before after =>
          after = before) ∧
        (stage = .create → (start guard daemon).Leaves n (past ++ [last]) fun before after =>
          ∀ id, before.residents.find? id = none → after.residents.find? id = none) ∧
        (stage = .start → ∃ newId config, ⟨.create container config, .ok newId⟩ ∈ rest ∧
          ((start guard daemon).Untouched n newId (past ++ [last]) →
            ((start guard daemon).daemonAfter execute (past ++ [last])).Idle newId container))) ∧
    (e.source? = none → (start guard daemon).Leaves n (past ++ [last]) fun before after =>
      after = before) := by
  obtain ⟨phase, heard, request, answers, story, hasks, ends, hheard, hserved⟩ :=
    ended_of_returned legal (List.mem_append_left _ begun) returns
  rw [hheard] at hserved
  have hsame : (start guard daemon).daemonAfter execute (past ++ [last]) =
      (start guard daemon).daemonAfter execute past := by
    rw [daemonAfter_snoc, daemon_step_of_service?_eq_none (service?_of_returned returns)]
    rfl
  have hpast : past <+: past ++ [last] := List.prefix_append _ _
  refine ⟨?_, fun plain => ?_⟩
  · rintro container stage source rfl
    obtain ⟨target, rest, rfl, broken, hreplaces⟩ := ends.broken story hasks
    obtain ⟨-, info, htarget, ⟨first, hid, hopened⟩, -⟩ := hreplaces
    rw [hopened] at hserved
    have hbefore : (start guard daemon).served execute n past =
        ⟨.inspect reference, .ok first⟩ :: ⟨.inspect target.fullId, .ok info⟩ :: rest := by
      rw [← hserved, served_append, served_singleton, service?_of_returned returns]
      simp
    have hfirst : first.id = some target.fullId := by
      have hmem : ⟨.inspect reference, .ok first⟩ ∈
          (start guard daemon).served execute n past := by
        rw [hbefore]
        exact List.mem_cons_self
      obtain ⟨-, hknown, -⟩ := tidy.key_of_served hmem
      rw [← hid]
      exact hknown
    refine ⟨target.fullId, first, info, rest, hfirst, hserved, ?_, ?_, ?_, ?_, ?_⟩
    · rw [htarget]
      rfl
    · rw [hsame]
      exact gone_iff (tidy.of_isPrefix hpast) legal.of_append begun returns hid hbefore broken
    · rintro rfl
      exact leaves_of_pull hserved broken
    · rintro rfl
      exact leaves_of_early hserved broken nofun
    · rintro rfl
      exact idle_of_start tidy hid hserved broken
  · have hlooks := ends.looks plain story hasks
    rw [← hserved] at hlooks
    exact leaves_of_served _ hlooks fun effect looks => effect.eq_of_looks looks

end Run

/-- `web` is updated up to the start of the replacement, which is made to fail, while somebody waits
to stop `web`. -/
def untilStarted : List Event :=
  untilRemoved ++ .serve 0 none :: onceRemoved.take 3 ++ [.serve 0 (some .timeout)]

theorem tidy_untilStarted : Tidy (start ⟨[]⟩ webDaemon) (untilStarted ++ [.deliver 0]) := by
  refine .of_lawful keyed_webDaemon ?_ ?_ ?_
  · refine @lawful_of_lives (start ⟨[]⟩ webDaemon) (untilStarted ++ [.deliver 0]) ["4f1a", "9e2b"]
      keyed_webDaemon (by decide +kernel) ?_
    intro id hid
    obtain rfl | rfl : id = "4f1a" ∨ id = "9e2b" := by simpa using hid
    · exact ⟨0, 13, by decide +kernel⟩
    · exact ⟨15, 19, by decide +kernel⟩
  · apply freshIds_of_keys
    decide +kernel
  · intro n
    simp [untilStarted, untilRemoved, onceRemoved]

theorem legal_untilStarted :
    (start ⟨[]⟩ webDaemon).Legal execute (untilStarted ++ [.deliver 0]) := by
  refine ⟨fun n op hmem => ?_, by decide +kernel⟩
  obtain ⟨-, rfl⟩ | ⟨-, rfl⟩ : n = 0 ∧ op = .update "web" ∨ n = 1 ∧ op = .stop "4f" := by
    simpa [untilStarted, untilRemoved, onceRemoved] using begin_mem_engineEvents.mp hmem
  · rfl
  · rfl

/-- `web` is gone, and its replacement is there and does not run. -/
theorem failure_tells_untilStarted :
    Tidy (start ⟨[]⟩ webDaemon) (untilStarted ++ [.deliver 0]) ∧
    (start ⟨[]⟩ webDaemon).Legal execute (untilStarted ++ [.deliver 0]) ∧
    ((start ⟨[]⟩ webDaemon).after execute untilStarted).returned execute 0 [.deliver 0] =
      [.error (.updateFailed "web" .start (.ofFault .timeout))] ∧
    ((start ⟨[]⟩ webDaemon).daemonAfter execute (untilStarted ++ [.deliver 0])).residents.find?
      "4f1a" = none ∧
    ∃ newId, ((start ⟨[]⟩ webDaemon).daemonAfter execute (untilStarted ++ [.deliver 0])).Idle newId
      "web" := by
  have htidy := tidy_untilStarted
  have hlegal := legal_untilStarted
  have hbegun : .begin 0 (.update "web") ∈ untilStarted := List.mem_cons_self
  have hreturned : ((start ⟨[]⟩ webDaemon).after execute untilStarted).returned execute 0
      [.deliver 0] = [.error (.updateFailed "web" .start (.ofFault .timeout))] := by
    with_unfolding_all rfl
  have hmem : .error (.updateFailed "web" .start (.ofFault .timeout)) ∈
      ((start ⟨[]⟩ webDaemon).after execute untilStarted).returned execute 0 [.deliver 0] := by
    rw [hreturned]
    exact List.mem_singleton_self _
  obtain ⟨hstage, -⟩ := failure_tells htidy hlegal hbegun hmem
  obtain ⟨fullId, first, info, rest, hfirst, hserved, -, hgone, -, -, hstart⟩ :=
    hstage _ _ _ rfl
  obtain ⟨newId, -, -, hidle⟩ := hstart rfl
  let web : InspectRecord := { id := some "4f1a", name := some "/web" }
  obtain ⟨more, hweb⟩ : ∃ more, (start ⟨[]⟩ webDaemon).served execute 0
      (untilStarted ++ [.deliver 0]) = ⟨.inspect "web", .ok web⟩ :: more :=
    ⟨_, by with_unfolding_all rfl⟩
  rw [hweb] at hserved
  obtain ⟨-, hok⟩ := Exchange.inspect_inj (List.cons.inj hserved).1
  obtain rfl := Except.ok.inj hok
  obtain rfl : "4f1a" = fullId := Option.some.inj hfirst
  refine ⟨htidy, hlegal, hreturned, hgone.mpr rfl, newId, hidle ?_⟩
  -- whoever waits to stop `web` has only looked it up
  have hlooks : ∀ service ∈ (start ⟨[]⟩ webDaemon).services execute (untilStarted ++ [.deliver 0]),
      service.number ≠ 0 → service.exchange.request.changes? = none := by
    decide +kernel
  rintro past event service reference ⟨future, hevents⟩ hservice hother hchanges
  have hmem : service ∈ (start ⟨[]⟩ webDaemon).services execute (untilStarted ++ [.deliver 0]) := by
    rw [← hevents, services_append, services_append, services_singleton, hservice]
    simp
  rw [hlooks service hmem hother] at hchanges
  cases hchanges

end World

end Dockmaster
