import Dockmaster.Proofs.World.Dependable
import Dockmaster.Proofs.Container.CarryOver
import Mathlib.Data.List.Permutation

/-!
# One update after another

`renew` updates a container as often as it is told to, each time under the id that the update before
gave back. On a daemon that keeps what it is given, nothing drifts: whatever the round, what stands
in place of the container (`Stands`) has its name, its image and the configuration that its
replacement is created with.

A step of an update that the daemon carries out is put in front of the rest (`Carried.step`), so one
round is read from its end to its beginning, from the start of the replacement (`carried_starting`)
to the first inspection (`Stands.round`). What a container was created with is what it would be
replaced with (`configFor_of_holds`), so every round ends where the next can begin, until the daemon
gives a replacement an id that is protected itself (`updates_do_not_drift`).
-/

namespace Dockmaster

open Function (update)
open Lifecycle

namespace Operation

variable {σ : Type}

/-! ### What is asked of a daemon -/

/-- A daemon together with the requests that were made to it, the oldest first. -/
def recording (server : Server σ) : Server (σ × List Request) := fun (s, asked) request =>
  (((server s request).1, asked ++ [request]), (server s request).2)

/-- What the requests for new containers ask for: the names and the configurations. -/
def creations (asked : List Request) : List (String × CreateConfig) :=
  asked.filterMap fun
    | .create name config => some (name, config)
    | _ => none

/-- Updates a container some times, under a reference first and then each time under the id that the
update before gave back. The first outcome that is no id is the last. -/
def renew (guard : Guard) (server : Server σ) : Nat → σ → String → σ × Outcome
  | 0, s, reference => (s, .ok (.id reference))
  | rounds + 1, s, reference =>
    match run guard server s (Operation.update reference) with
    | (s, .ok (.id id)) => renew guard server rounds s id
    | (s, outcome) => (s, outcome)

end Operation

open Operation

/-! ### The configuration of a replacement -/

/-- The configuration that the replacement of a container is created with. -/
def Resident.configFor (resident : Resident) (image : String) : CreateConfig :=
  (Snapshot.capture resident.info).createConfig image

/-- **A replacement would be replaced with what it was created with.** -/
theorem Resident.configFor_of_holds {old new : Resident} {name image : String}
    (h : new.Holds name (old.configFor image)) : new.configFor image = old.configFor image := by
  obtain ⟨-, hconfig, hhost⟩ := h
  have hsettings : new.info.settings = (old.configFor image).settings := by
    rw [InspectRecord.settings, hconfig]
    rfl
  exact Snapshot.createConfig_of_settings hsettings hhost

/-- What a container holds, and whether it runs, does not depend on its networks. -/
theorem Resident.Holds.of_apart {old new : Resident} {name : String} {config : CreateConfig}
    (h : old.Holds name config) (hapart : new.apart = { old.apart with running := true }) :
    new.Holds name config ∧ new.running = true := by
  have hinfo : new.apart.info = old.apart.info := by rw [hapart]
  have hrunning : new.apart.running = true := by rw [hapart]
  refine ⟨⟨?_, ?_, ?_⟩, hrunning⟩
  · exact (congrArg InspectRecord.name hinfo).trans h.1
  · exact (congrArg InspectRecord.config hinfo).trans h.2.1
  · exact (congrArg InspectRecord.hostConfig hinfo).trans h.2.2

/-! ### The container and the others -/

/-- **What stands in place of a container.** Besides the others there is one container. It has the
name and the image, and it would be replaced by one with the configuration. -/
structure Stands (containers others : String → Option Resident) (name image : String)
    (config : CreateConfig) (id : String) (resident : Resident) : Prop where
  /-- It is the only one besides the others. -/
  view : containers = update others id (some resident)
  /-- Its id is not that of another. -/
  own : others id = none
  /-- It has the name. -/
  name_eq : resident.info.name = some ("/" ++ name)
  /-- It has the image. -/
  image_eq : resident.info.config.bind (·.image) = some image
  /-- It has the configuration. -/
  config_eq : resident.configFor image = config

/-- What an update takes over of the container. -/
theorem Stands.target_eq {containers others : String → Option Resident} {name image id : String}
    {config : CreateConfig} {resident : Resident}
    (h : Stands containers others name image config id resident) :
    Target.ofRecord id resident.info = ⟨id, name, image, .capture resident.info⟩ := by
  have hname : stripSlash (resident.info.name.getD "") = name := by
    rw [h.name_eq, Option.getD_some, ScriptedDaemon.stripSlash_slash_append]
  have himage : (resident.info.config.bind (·.image)).getD "" = image := by
    rw [h.image_eq, Option.getD_some]
  unfold Target.ofRecord InspectRecord.identity Identity.ofDaemon
  rw [hname, himage]

/-- The texts by which the container may be protected. -/
theorem Stands.namesOf_eq {containers others : String → Option Resident} {name image id : String}
    {config : CreateConfig} {resident : Resident}
    (h : Stands containers others name image config id resident) (reference : String) :
    namesOf reference id resident.info = [reference, id, name, image] := by
  rw [namesOf, h.name_eq, h.image_eq, Option.getD_some, Option.getD_some,
    ScriptedDaemon.stripSlash_slash_append]

/-! ### One round -/

section Round

variable {σ : Type} {server : Server σ} {find? : σ → String → Option Resident} {guard : Guard}
  {reference : String} {s after : σ} {phase next : Phase} {id : String} {asked : List Request}

/-- An update goes from a phase to its end with success: the daemon afterwards, what was asked of
it, and the id of the replacement. -/
def Carried (guard : Guard) (server : Server σ) (reference : String) (s : σ) (phase : Phase)
    (after : σ) (asked : List Request) (id : String) : Prop :=
  ∀ before, run guard (recording server) (s, before) (.manage .update reference phase) =
    ((after, before ++ asked), .ok (.id id))

/-- **A step of an update**, in front of the rest. -/
theorem Carried.step {request : Request} (asks : phase.request? reference = some request)
    (leads : Lifecycle.resume guard .update reference (server.answers s) phase = .running next)
    (h : Carried guard server reference (server s request).1 next after asked id) :
    Carried guard server reference s phase after (request :: asked) id := by
  intro before
  have hresume : (Operation.manage .update reference phase).resume guard
      ((recording server).answers (s, before)) = .running (.manage .update reference next) := by
    change (Lifecycle.resume guard .update reference (server.answers s) phase).map _ _ = _
    rw [leads]
    rfl
  have hafter : (recording server).after (s, before) (.manage .update reference phase) =
      ((server s request).1, before ++ [request]) := by
    have hasks : (Operation.manage .update reference phase).request? = some request := asks
    rw [Server.after, hasks]
    rfl
  rw [run_of_running hresume, hafter, h]
  rw [List.append_assoc]
  rfl

/-- Nobody else has the lock that an update waits for. -/
theorem Carried.lock {fullId : String}
    (h : Carried guard server reference s (.rechecking fullId) after asked id) :
    Carried guard server reference s (.queueing fullId) after asked id :=
  fun before => (run_of_running rfl).trans (h before)

variable (dependable : Dependable server find?) (target : Target) {resident : Resident}
include dependable

theorem carried_starting (found : find? s id = some resident) :
    ∃ after, Carried guard server reference s (.starting target id) after [.start id] id ∧
      find? after = update (find? s) id (some { resident with running := true }) := by
  obtain ⟨hstarted, hview⟩ := dependable.started found
  refine ⟨_, fun before => ?_, hview⟩
  have hresume : (Operation.manage .update reference (.starting target id)).resume guard
      ((recording server).answers (s, before)) = .finished (.ok (.id id)) := by
    change (Lifecycle.resume guard .update reference (server.answers s) _).map _ _ = _
    rw [Lifecycle.resume, Server.answers, hstarted]
    rfl
  exact run_of_finished hresume

/-- A replacement is connected to its networks, whatever comes of it, and started. -/
theorem carried_reconnecting (left : List Attachment) (found : find? s id = some resident) :
    ∃ after asked new,
      Carried guard server reference s (reconnecting target id left) after asked id ∧
      creations asked = [] ∧ find? after = update (find? s) id (some new) ∧
      new.apart = { resident.apart with running := true } := by
  induction left generalizing s resident with
  | nil =>
    obtain ⟨after, hcarried, hview⟩ := carried_starting dependable target found
    exact ⟨after, _, _, hcarried, rfl, hview, rfl⟩
  | cons network left ih =>
    obtain ⟨changed, hview, hapart⟩ := dependable.connected network.network network.aliases found
    have hfound : find? (server s (.connect network.network id network.aliases)).1 id =
        some changed := by
      rw [hview, Function.update_self]
    obtain ⟨after, asked, new, hcarried, hcreations, hafter, hnew⟩ := ih hfound
    refine ⟨after, _, new, hcarried.step rfl rfl, hcreations, ?_, ?_⟩
    · rw [hafter, hview, Function.update_idem]
    · rw [hnew, hapart]

/-- A replacement is created, connected and started. -/
theorem carried_creating (free : ∀ other resident, find? s other = some resident →
      resident.info.name ≠ some ("/" ++ target.name)) :
    ∃ after asked id new, Carried guard server reference s (.creating target) after asked id ∧
      creations asked = [(target.name, target.snapshot.createConfig target.image)] ∧
      find? s id = none ∧ find? after = update (find? s) id (some new) ∧
      new.Holds target.name (target.snapshot.createConfig target.image) ∧ new.running = true := by
  obtain ⟨id, created, hanswer, hfresh, hview, hholds⟩ :=
    dependable.created (target.snapshot.createConfig target.image) free
  have hfound : find? (server s (.create target.name
      (target.snapshot.createConfig target.image))).1 id = some created := by
    rw [hview, Function.update_self]
  obtain ⟨after, asked, new, hcarried, hcreations, hafter, hapart⟩ :=
    carried_reconnecting dependable target target.snapshot.reconnect hfound
  obtain ⟨hholds, hrunning⟩ := hholds.of_apart hapart
  refine ⟨after, _, id, new, hcarried.step rfl ?_, ?_, hfresh, ?_, hholds, hrunning⟩
  · rw [Lifecycle.resume, Server.answers, hanswer]
  · exact congrArg (_ :: ·) hcreations
  · rw [hafter, hview, Function.update_idem]

/-- The container is looked up by a reference and then by its id, and is not protected. -/
theorem carried_resolving {others : String → Option Resident} {name image : String}
    {config : CreateConfig} (h : Stands (find? s) others name image config id resident)
    (named : (server s (.inspect reference)).2 = .ok resident.info)
    (told : resident.info.id.getD reference = id)
    (unprotected : ∀ text ∈ namesOf reference id resident.info, text ∉ guard.entries) :
    ∃ s', find? s' = find? s ∧ ∀ {after asked newId},
      Carried guard server reference s' (.pulling ⟨id, name, image, .capture resident.info⟩) after
        asked newId →
      Carried guard server reference s .resolving after
        (.inspect reference :: .inspect id :: asked) newId := by
  have hlooked := dependable.looked s reference
  generalize hs1 : (server s (.inspect reference)).1 = s1 at hlooked
  have hfound : find? s1 id = some resident := by
    rw [hlooked, h.view, Function.update_self]
  refine ⟨(server s1 (.inspect id)).1, (dependable.looked s1 id).trans hlooked, ?_⟩
  intro after asked newId hpulling
  have hrechecking : Carried guard server reference s1 (.rechecking id) after
      (.inspect id :: asked) newId := by
    refine hpulling.step rfl ?_
    rw [Lifecycle.resume, Server.answers, dependable.inspected hfound]
    dsimp only
    rw [vetoed_eq_false_iff.mpr unprotected, if_neg Bool.false_ne_true, firstPhase, h.target_eq]
  rw [← hs1] at hrechecking
  refine hrechecking.lock.step rfl ?_
  rw [Lifecycle.resume, Server.answers, named]
  dsimp only
  rw [told]

/-- The old container is stopped, unless it is stopped already, and removed. -/
theorem carried_pulling (found : find? s target.fullId = some resident) :
    ∃ s', find? s' = update (find? s) target.fullId none ∧ ∀ {after asked newId},
      Carried guard server reference s' (.creating target) after asked newId →
      Carried guard server reference s (.pulling target) after
        (.pull target.image :: .stop target.fullId updateStopGrace ::
          .remove target.fullId true :: asked) newId := by
  obtain ⟨hpulled, hview⟩ := dependable.pulled s target.image
  generalize hs1 : (server s (.pull target.image)).1 = s1 at hview
  obtain ⟨hstopped, changed, hview1⟩ := dependable.stopped updateStopGrace (hview ▸ found)
  generalize hs2 : (server s1 (.stop target.fullId updateStopGrace)).1 = s2 at hview1
  have hfound : find? s2 target.fullId = some changed := by
    rw [hview1, Function.update_self]
  obtain ⟨hremoved, hview2⟩ := dependable.removed hfound
  refine ⟨_, by rw [hview2, hview1, hview, Function.update_idem], ?_⟩
  intro after asked newId hcreating
  have hremoving : Carried guard server reference s2 (.removing target) after
      (.remove target.fullId true :: asked) newId := by
    refine hcreating.step rfl ?_
    rw [Lifecycle.resume, Server.answers, hremoved]
  rw [← hs2] at hremoving
  have hhalting : Carried guard server reference s1 (.halting target) after
      (.stop target.fullId updateStopGrace :: .remove target.fullId true :: asked) newId := by
    refine hremoving.step rfl ?_
    rw [Lifecycle.resume, Server.answers]
    rcases hstopped with hstopped | ⟨message, hstopped⟩
    · rw [hstopped]
    · rw [hstopped]
      rfl
  rw [← hs1] at hhalting
  refine hhalting.step rfl ?_
  rw [Lifecycle.resume, Server.answers, hpulled]

/-- **One round.** An update of the container that stands in place of another succeeds if the
container is not protected, and its replacement stands in its place. -/
theorem Stands.round {others : String → Option Resident} {name image : String}
    {config : CreateConfig} (h : Stands (find? s) others name image config id resident)
    (free : ∀ other resident, others other = some resident →
      resident.info.name ≠ some ("/" ++ name))
    (named : (server s (.inspect reference)).2 = .ok resident.info)
    (told : resident.info.id.getD reference = id)
    (unprotected : ∀ text ∈ namesOf reference id resident.info, text ∉ guard.entries) :
    ∃ after asked newId new, Carried guard server reference s .resolving after asked newId ∧
      creations asked = [(name, config)] ∧
      Stands (find? after) others name image config newId new ∧ new.running = true := by
  obtain ⟨s1, hview1, hresolving⟩ := carried_resolving dependable h named told unprotected
  have hfound : find? s1 id = some resident := by
    rw [hview1, h.view, Function.update_self]
  obtain ⟨s2, hview2, hpulling⟩ :=
    carried_pulling dependable ⟨id, name, image, .capture resident.info⟩ hfound
  have hothers : find? s2 = others := by
    rw [hview2, hview1, h.view, Function.update_idem, ← h.own, Function.update_eq_self]
  obtain ⟨after, asked, newId, new, hcreating, hcreations, hfresh, hview, hholds, hrunning⟩ :=
    carried_creating dependable ⟨id, name, image, .capture resident.info⟩ (hothers ▸ free)
  rw [hothers] at hfresh hview
  have hconfig : new.configFor image = config :=
    (Resident.configFor_of_holds hholds).trans h.config_eq
  refine ⟨after, _, newId, new, hresolving (hpulling hcreating), ?_,
    ⟨hview, hfresh, hholds.1, ?_, hconfig⟩, hrunning⟩
  · rw [← h.config_eq]
    exact hcreations
  · rw [hholds.2.1]
    rfl

omit target in
/-- **The next round is refused** if the id of the replacement is protected. -/
theorem Stands.refused {others : String → Option Resident} {name image : String}
    {config : CreateConfig} (h : Stands (find? s) others name image config id resident)
    (isProtected : id ∈ guard.entries) (before : List Request) :
    ∃ last, run guard (recording server) (s, before) (Operation.update id) =
        (last, .error (.blacklisted id)) ∧ find? last.1 = find? s := by
  have hfound : find? s id = some resident := by
    rw [h.view, Function.update_self]
  have hlooked := dependable.looked s id
  have hresolving : (Operation.update id).resume guard ((recording server).answers (s, before)) =
      .running (.manage .update id (.queueing id)) := by
    change (Lifecycle.resume guard .update id (server.answers s) .resolving).map _ _ = _
    rw [Lifecycle.resume, Server.answers, dependable.inspected hfound]
    dsimp only
    rw [dependable.told hfound]
    rfl
  rw [run_of_running hresolving, run_of_running rfl]
  change ∃ last, run guard (recording server) ((server s (.inspect id)).1,
    before ++ [.inspect id]) (.manage .update id (.rechecking id)) = _ ∧ _
  generalize (server s (.inspect id)).1 = s1 at hlooked
  have hfound1 : find? s1 id = some resident := by
    rw [hlooked, hfound]
  have hvetoed : vetoed guard id id resident.info = true := by
    rw [vetoed_iff, h.namesOf_eq]
    exact ⟨id, List.mem_cons_self, isProtected⟩
  have hrechecking (before : List Request) : (Operation.manage .update id (.rechecking id)).resume
      guard ((recording server).answers (s1, before)) = .finished (.error (.blacklisted id)) := by
    change (Lifecycle.resume guard .update id (server.answers s1) (.rechecking id)).map _ _ = _
    rw [Lifecycle.resume, Server.answers, dependable.inspected hfound1]
    dsimp only
    rw [hvetoed, if_pos rfl]
    rfl
  exact ⟨_, run_of_finished (hrechecking _), (dependable.looked s1 id).trans hlooked⟩

/-! ### Many rounds -/

omit dependable target in
theorem renew_of_carried (h : Carried guard server reference s .resolving after asked id)
    (rounds : Nat) (before : List Request) :
    renew guard (recording server) (rounds + 1) (s, before) reference =
      renew guard (recording server) rounds (after, before ++ asked) id := by
  have hrun : run guard (recording server) (s, before) (Operation.update reference) = _ := h before
  rw [renew, hrun]

omit target in
/-- **Round after round.** The container that stands in place of another is replaced as often as
asked, or up to a replacement with a protected id. -/
theorem Stands.rounds {others : String → Option Resident} {name image : String}
    {config : CreateConfig} (h : Stands (find? s) others name image config id resident)
    (free : ∀ other resident, others other = some resident →
      resident.info.name ≠ some ("/" ++ name))
    (named : (server s (.inspect reference)).2 = .ok resident.info)
    (told : resident.info.id.getD reference = id)
    (unprotected : ∀ text ∈ [reference, id, name, image], text ∉ guard.entries) (more : Nat)
    (before : List Request) :
    ∃ m ≤ more, ∃ after asked newId new,
      renew guard (recording server) (m + 1) (s, before) reference =
        ((after, before ++ asked), .ok (.id newId)) ∧
      creations asked = List.replicate (m + 1) (name, config) ∧
      Stands (find? after) others name image config newId new ∧ new.running = true ∧
      (m = more ∨ newId ∈ guard.entries ∧ ∃ last,
        renew guard (recording server) (more + 1) (s, before) reference =
          (last, .error (.blacklisted newId)) ∧ find? last.1 = find? after) := by
  induction more generalizing s reference id resident before with
  | zero =>
    obtain ⟨after, asked, newId, new, hcarried, hcreations, hstands, hrunning⟩ :=
      h.round dependable free named told (h.namesOf_eq reference ▸ unprotected)
    exact ⟨0, Nat.le_refl 0, after, asked, newId, new, renew_of_carried hcarried 0 before,
      hcreations, hstands, hrunning, .inl rfl⟩
  | succ more ih =>
    obtain ⟨after, asked, newId, new, hcarried, hcreations, hstands, hrunning⟩ :=
      h.round dependable free named told (h.namesOf_eq reference ▸ unprotected)
    by_cases hprotected : newId ∈ guard.entries
    · -- the first replacement is protected, so the second round is refused
      obtain ⟨last, hrefused, hlast⟩ :=
        hstands.refused dependable hprotected (before ++ asked)
      refine ⟨0, Nat.zero_le _, after, asked, newId, new, renew_of_carried hcarried 0 before,
        hcreations, hstands, hrunning, .inr ⟨hprotected, last, ?_, hlast⟩⟩
      rw [renew_of_carried hcarried, renew, hrefused]
    · have hfound : find? after newId = some new := by
        rw [hstands.view, Function.update_self]
      have hunprotected : ∀ text ∈ [newId, newId, name, image], text ∉ guard.entries := by
        simp only [List.forall_mem_cons] at unprotected ⊢
        exact ⟨hprotected, hprotected, unprotected.2.2⟩
      obtain ⟨m, hm, last, askedLater, lastId, lastNew, hrenew, hcreationsLater, hstandsLater,
          hrunningLater, hend⟩ :=
        ih hstands (dependable.inspected hfound) (dependable.told hfound) hunprotected
          (before ++ asked)
      refine ⟨m + 1, Nat.succ_le_succ hm, last, asked ++ askedLater, lastId, lastNew, ?_, ?_,
        hstandsLater, hrunningLater, ?_⟩
      · rw [renew_of_carried hcarried, hrenew, List.append_assoc]
      · rw [creations, List.filterMap_append]
        exact (congrArg₂ (· ++ ·) hcreations hcreationsLater).trans rfl
      · rw [renew_of_carried hcarried]
        exact hend.imp_left (congrArg (· + 1))

end Round

/-- **Updates do not drift.**  On a daemon that keeps what it is given, an unprotected container
with an image, of which no other has the name, is updated `k` times, each time under the id that the
update before gave back.  Either all updates succeed, or those up to a replacement whose id is
itself protected; the next one is refused then, and changes nothing.  After those that succeed there
is exactly one container in place of the first: it runs, it has the name and the image of the first,
and all requests for a new container were for this name and for one and the same configuration.
Every other container is as it was. -/
theorem updates_do_not_drift {σ : Type} {server : Server σ} {find? : σ → String → Option Resident}
    (dependable : Dependable server find?) {guard : Guard} {s : σ}
    {reference id name image : String} {resident : Resident} (found : find? s id = some resident)
    (named : (server s (.inspect reference)).2 = .ok resident.info)
    (told : resident.info.id.getD reference = id)
    (name_eq : resident.info.name = some ("/" ++ name))
    (image_eq : resident.info.config.bind (·.image) = some image)
    (unprotected : ∀ text ∈ [reference, id, name, image], text ∉ guard.entries)
    (alone : ∀ other resident', find? s other = some resident' →
      resident'.info.name = resident.info.name → other = id) {k : Nat} (hk : 0 < k) :
    ∃ m, 0 < m ∧ m ≤ k ∧ ∃ after asked newId new,
      renew guard (recording server) m (s, []) reference = ((after, asked), .ok (.id newId)) ∧
      find? after = update (update (find? s) id none) newId (some new) ∧
      (newId = id ∨ find? s newId = none) ∧ new.running = true ∧
      new.info.name = resident.info.name ∧ new.info.config.bind (·.image) = some image ∧
      creations asked = List.replicate m (name, resident.configFor image) ∧
      (m = k ∨ newId ∈ guard.entries ∧ ∃ last,
        renew guard (recording server) k (s, []) reference =
          (last, .error (.blacklisted newId)) ∧ find? last.1 = find? after) := by
  have hstands : Stands (find? s) (update (find? s) id none) name image (resident.configFor image)
      id resident := by
    refine ⟨?_, Function.update_self .., name_eq, image_eq, rfl⟩
    rw [Function.update_idem, ← found, Function.update_eq_self]
  have hfree : ∀ other resident', update (find? s) id none other = some resident' →
      resident'.info.name ≠ some ("/" ++ name) := by
    intro other resident' hother hname
    by_cases hid : other = id
    · rw [hid, Function.update_self] at hother
      cases hother
    · rw [Function.update_of_ne hid] at hother
      exact hid (alone other resident' hother (hname.trans name_eq.symm))
  obtain ⟨more, rfl⟩ : ∃ more, k = more + 1 := ⟨k - 1, by omega⟩
  obtain ⟨m, hm, after, asked, newId, new, hrenew, hcreations, hnew, hrunning, hend⟩ :=
    hstands.rounds dependable hfree named told unprotected more []
  refine ⟨m + 1, Nat.succ_pos m, Nat.succ_le_succ hm, after, asked, newId, new, hrenew, hnew.view,
    ?_, hrunning, hnew.name_eq.trans name_eq.symm, hnew.image_eq, hcreations,
    hend.imp_left (congrArg (· + 1))⟩
  by_cases hid : newId = id
  · exact .inl hid
  · have hown := hnew.own
    rw [Function.update_of_ne hid] at hown
    exact .inr hown

/-- A container of which a snapshot drops the empty user. -/
def webResident : Resident where
  info := {
    id := some "c1"
    name := some "/web"
    config := some ⟨some "app:v1", { user := some "", volumes := some ["/data"] }⟩
    hostConfig := some (.object [])
    networks := some [⟨"front", none⟩] }
  running := false

/-- A container of which little is told. -/
def dbResident : Resident where
  info := { id := some "c2", name := some "/db" }
  running := true

/-- A daemon with two containers. -/
def webAndDb : Stocked where
  daemon := { residents := [("c1", webResident), ("c2", dbResident)] }
  sorted := by
    unfold Directory.Sorted
    decide
  keyed := by simp [ScriptedDaemon.Keyed, webResident, dbResident]

/-- No other container has the name. -/
theorem alone_webAndDb (other : String) (resident : Resident)
    (found : webAndDb.find? other = some resident)
    (h : resident.info.name = webResident.info.name) : other = "c1" := by
  have hmem : (other, resident) ∈ [("c1", webResident), ("c2", dbResident)] :=
    Directory.mem_of_find? found
  simp only [List.mem_cons, List.not_mem_nil, or_false, Prod.mk.injEq] at hmem
  rcases hmem with ⟨rfl, -⟩ | ⟨-, rfl⟩
  · rfl
  · exact absurd h (by decide)

/-- The container is updated under its name first. -/
theorem updates_do_not_drift_threeTimes :
    ∃ after asked newId new,
      renew ⟨["db"]⟩ (recording Stocked.server) 3 (webAndDb, []) "web" =
        ((after, asked), .ok (.id newId)) ∧
      after.find? = update (update webAndDb.find? "c1" none) newId (some new) ∧
      new.running = true ∧ new.info.name = some "/web" ∧
      creations asked = List.replicate 3 ("web", webResident.configFor "app:v1") := by
  have hlast : (renew ⟨["db"]⟩ (recording Stocked.server) 3 (webAndDb, []) "web").2 =
      .ok (.id "xc2") := by cbv
  obtain ⟨m, -, -, after, asked, newId, new, hrenew, hview, -, hrunning, hname, -, hcreations,
      hend⟩ :=
    @updates_do_not_drift Stocked Stocked.server Stocked.find? Stocked.dependable ⟨["db"]⟩ webAndDb
      "web" "c1" "web" "app:v1" webResident rfl rfl rfl rfl rfl (by decide) alone_webAndDb 3
      (by decide)
  rcases hend with rfl | ⟨-, last, hrefused, -⟩
  · exact ⟨after, asked, newId, new, hrenew, hview, hrunning, hname, hcreations⟩
  · rw [hrefused] at hlast
    cases hlast

/-- A daemon with two containers of one name. -/
def webTwice : Stocked where
  daemon := { residents := [
    ("c1", webResident),
    ("c3", { webResident with info := { webResident.info with id := some "c3" } })] }
  sorted := by
    unfold Directory.Sorted
    decide
  keyed := by simp [ScriptedDaemon.Keyed, webResident]

/-- Updates need not go on for ever: the id that a replacement is given may be protected, and
another container may have the name, so that no replacement can be created. -/
theorem updates_may_fail :
    (¬ ∀ (σ : Type) (server : Server σ) (find? : σ → String → Option Resident),
      Dependable server find? → ∀ (guard : Guard) (s : σ) (id name image : String)
      (resident : Resident), find? s id = some resident →
      resident.info.name = some ("/" ++ name) →
      resident.info.config.bind (·.image) = some image →
      (∀ text ∈ [id, name, image], text ∉ guard.entries) →
      (∀ other resident', find? s other = some resident' →
        resident'.info.name = resident.info.name → other = id) →
      ∀ k, ∃ after newId, renew guard server k s id = (after, .ok (.id newId))) ∧
    (¬ ∀ (σ : Type) (server : Server σ) (find? : σ → String → Option Resident),
      Dependable server find? → ∀ (guard : Guard) (s : σ) (id name image : String)
      (resident : Resident), find? s id = some resident →
      resident.info.name = some ("/" ++ name) →
      resident.info.config.bind (·.image) = some image → guard.entries = [] →
      ∀ k, ∃ after newId, renew guard server k s id = (after, .ok (.id newId))) := by
  constructor
  · intro h
    obtain ⟨after, newId, hrenew⟩ := h Stocked Stocked.server Stocked.find? Stocked.dependable
      ⟨["xc2"]⟩ webAndDb "c1" "web" "app:v1" webResident rfl rfl rfl (by decide) alone_webAndDb 2
    have hrefused : (renew ⟨["xc2"]⟩ Stocked.server 2 webAndDb "c1").2 =
        .error (.blacklisted "xc2") := by cbv
    rw [hrenew] at hrefused
    cases hrefused
  · intro h
    obtain ⟨after, newId, hrenew⟩ := h Stocked Stocked.server Stocked.find? Stocked.dependable
      ⟨[]⟩ webTwice "c1" "web" "app:v1" webResident rfl rfl rfl rfl 1
    -- the old container is gone when the replacement cannot be created
    have hfailed : (run ⟨[]⟩ Stocked.server webTwice (Operation.update "c1")).2.isOk = false := by
      rw [run_of_running rfl, run_of_running rfl, run_of_running rfl, run_of_running rfl,
        run_of_running rfl, run_of_running rfl, run_of_finished rfl]
      rfl
    rw [renew] at hrenew
    split at hrenew
    · rename_i hrun
      rw [hrun] at hfailed
      cases hfailed
    · rename_i hnone hrun
      cases hrenew
      exact hnone _ rfl

end Dockmaster
