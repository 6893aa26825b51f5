import Dockmaster.Proofs.Operation.Stages
import Dockmaster.Proofs.Operation.Sweep
import Mathlib.Data.Set.Basic

/-!
# A failing image does not disturb a sweep

A sweep checks one image after another, and what it hears about one reference has no influence on
what it does about another. Let a daemon answer about each reference as the earlier requests about
that reference alone decide (`Server.KeepsApart`). Then two sweeps that hear different things about
some references, failures included, report the same containers with other images
(`sweep_undisturbed`).

The proof goes container by container (`filter_reported_eq`). A check makes requests about its own
reference only, and two checks that are answered alike make the same requests and come to the same
outcome (`run_check_congr`); so whatever becomes of a check, the daemon has been asked the same
about every other reference.
-/

namespace Dockmaster

open Operation

/-! ### Daemons that keep references apart -/

namespace Operation.Server

variable {σ τ : Type}

/-- The state of a daemon after some requests. -/
def afterAll (server : Server σ) (s : σ) (requests : List Request) : σ :=
  requests.foldl (fun s request => (server s request).1) s

/-- The requests about an image reference. -/
def about (image : String) (requests : List Request) : List Request :=
  requests.filter (·.image? = some image)

/-- **A daemon that keeps references apart.** What it answers about a reference depends on the
earlier requests about that reference only. -/
def KeepsApart (server : Server σ) (s : σ) : Prop :=
  ∀ request image, request.image? = some image → ∀ earlier earlier',
    about image earlier = about image earlier' →
      (server (server.afterAll s earlier) request).2 =
        (server (server.afterAll s earlier') request).2

/-- Two daemons that answer alike about some references, if they were asked the same before. -/
def AgreeOn (server : Server σ) (s : σ) (other : Server τ) (t : τ) (images : Set String) : Prop :=
  ∀ request, ∀ image ∈ images, request.image? = some image → ∀ earlier,
    (server (server.afterAll s earlier) request).2 = (other (other.afterAll t earlier) request).2

theorem afterAll_append (server : Server σ) (s : σ) (earlier later : List Request) :
    server.afterAll s (earlier ++ later) = server.afterAll (server.afterAll s earlier) later :=
  List.foldl_append

theorem about_append (image : String) (earlier later : List Request) :
    about image (earlier ++ later) = about image earlier ++ about image later :=
  List.filter_append ..

/-- Requests about another reference are not about this one. -/
theorem about_of_others {image other : String} {requests : List Request}
    (h : ∀ request ∈ requests, request.image? = some other) (hne : other ≠ image) :
    about image requests = [] := by
  apply List.filter_eq_nil_iff.mpr
  intro request hmem hsame
  rw [decide_eq_true_eq, h request hmem] at hsame
  exact hne (Option.some.inj hsame)

/-- Two daemons that agree on a reference and keep it apart answer alike when they were asked the
same about it, whatever else they were asked. -/
theorem KeepsApart.answer_eq {server : Server σ} {s : σ} {other : Server τ} {t : τ}
    {images : Set String} (apart : other.KeepsApart t) (agree : server.AgreeOn s other t images)
    {request : Request} {image : String} (hmem : image ∈ images)
    (himage : request.image? = some image) {earlier earlier' : List Request}
    (same : about image earlier = about image earlier') :
    (server (server.afterAll s earlier) request).2 =
      (other (other.afterAll t earlier') request).2 :=
  (agree request image hmem himage earlier).trans (apart request image himage _ _ same)

end Operation.Server

/-! ### One check -/

section Check

open Operation.Server

variable {σ τ : Type} {guard : Guard} {server : Server σ} {other : Server τ} {image : String}

/-- A step of a check. -/
theorem run_check (s : σ) (phase : ImageCheck.Phase) :
    Operation.run guard server s (.check image phase) =
      match ImageCheck.resume image (server.answers s) phase with
      | .running next =>
        Operation.run guard server (server s (phase.request image)).1 (.check image next)
      | .finished result => ((server s (phase.request image)).1, result.map .flag) := by
  have hresume : (Operation.check image phase).resume guard (server.answers s) =
      (ImageCheck.resume image (server.answers s) phase).map (.check image) (·.map .flag) := rfl
  cases hprogress : ImageCheck.resume image (server.answers s) phase with
  | running next =>
    rw [hprogress] at hresume
    exact run_of_running hresume
  | finished result =>
    rw [hprogress] at hresume
    exact run_of_finished hresume

/-- What comes after a phase depends on the answer to its request. -/
theorem ImageCheck.resume_congr {answers answers' : Answers} {phase : ImageCheck.Phase}
    (h : answers (phase.request image) = answers' (phase.request image)) :
    ImageCheck.resume image answers phase = ImageCheck.resume image answers' phase := by
  cases phase with
  | before =>
    rw [ImageCheck.Phase.request] at h
    rw [ImageCheck.resume, ImageCheck.resume, h]
  | pulling old =>
    rw [ImageCheck.Phase.request] at h
    rw [ImageCheck.resume, ImageCheck.resume, h]
  | after old =>
    rw [ImageCheck.Phase.request] at h
    rw [ImageCheck.resume, ImageCheck.resume, h]

/-- **Two checks of a reference that are answered alike** make the same requests, all about that
reference, and come to the same outcome. -/
theorem run_check_congr (s : σ) (t : τ) (phase : ImageCheck.Phase)
    (alike : ∀ requests, (∀ request ∈ requests, request.image? = some image) →
      ∀ request, request.image? = some image →
        (server (server.afterAll s requests) request).2 =
          (other (other.afterAll t requests) request).2) :
    ∃ requests outcome, (∀ request ∈ requests, request.image? = some image) ∧
      Operation.run guard server s (.check image phase) = (server.afterAll s requests, outcome) ∧
      Operation.run guard other t (.check image phase) = (other.afterAll t requests, outcome) := by
  have himage := Sweep.image?_request image phase
  have hanswer : server.answers s (phase.request image) = other.answers t (phase.request image) :=
    alike [] (fun _ hmem => absurd hmem List.not_mem_nil) _ himage
  have hrun := @run_check σ guard server image s phase
  have hrun' := @run_check τ guard other image t phase
  rw [← ImageCheck.resume_congr hanswer] at hrun'
  cases hprogress : ImageCheck.resume image (server.answers s) phase with
  | finished result =>
    rw [hprogress] at hrun hrun'
    refine ⟨[phase.request image], _, ?_, hrun, hrun'⟩
    intro request hmem
    rw [List.mem_singleton.mp hmem]
    exact himage
  | running next =>
    rw [hprogress] at hrun hrun'
    have hrank := ImageCheck.rank_resume hprogress
    have hcons {requests : List Request}
        (habout : ∀ request ∈ requests, request.image? = some image) :
        ∀ request ∈ phase.request image :: requests, request.image? = some image := by
      intro request hmem
      rcases List.mem_cons.mp hmem with rfl | hmem
      · exact himage
      · exact habout request hmem
    -- the rest of the check begins after the request of this phase
    obtain ⟨requests, outcome, habout, hrest, hrest'⟩ := run_check_congr
      (server s (phase.request image)).1 (other t (phase.request image)).1 next
      fun requests habout => alike (phase.request image :: requests) (hcons habout)
    exact ⟨phase.request image :: requests, outcome, hcons habout, hrun.trans hrest,
      hrun'.trans hrest'⟩
termination_by phase.rank

/-- A check asks about its reference only. -/
theorem exists_requests_of_check (guard : Guard) (server : Server σ) (s : σ) (image : String) :
    ∃ requests, (∀ request ∈ requests, request.image? = some image) ∧
      (Operation.run guard server s (.checkForUpdate image)).1 = server.afterAll s requests := by
  obtain ⟨requests, outcome, habout, hrun, -⟩ :=
    @run_check_congr σ σ guard server server image s s .before fun _ _ _ _ => rfl
  exact ⟨requests, habout, congrArg Prod.fst hrun⟩

end Check

namespace Sweep

/-! ### What a sweep reports -/

section Reports

open Operation.Server

variable {σ τ : Type} {guard : Guard} {server : Server σ} {other : Server τ}

/-- Whether a check has found a newer image. -/
def isNewer : Outcome → Bool
  | .ok (.flag newer) => newer
  | _ => false

/-- **The containers that a sweep reports**: those whose image names a registry and of which the
check, carried out where the checks before it left the daemon, finds a newer image. -/
def reported (guard : Guard) (server : Server σ) : σ → List Summary → List Summary
  | _, [] => []
  | s, container :: rest =>
    if Image.isRemote container.image then
      let checked := Operation.run guard server s (.checkForUpdate container.image)
      if isNewer checked.2 then container :: reported guard server checked.1 rest
      else reported guard server checked.1 rest
    else reported guard server s rest

/-- A check within a sweep is carried out as it would be alone. -/
theorem carryOn_checking (s : σ) (container : Summary) (phase : ImageCheck.Phase)
    (rest : List Summary) (found : List String) :
    carryOn guard server s (.running (.checking container phase rest found)) =
      carryOn guard server (Operation.run guard server s (.check container.image phase)).1
        (advance
          (if isNewer (Operation.run guard server s (.check container.image phase)).2
            then found ++ [container.name] else found) rest) := by
  have hcheck := @run_check σ guard server container.image s phase
  have hstep := run_sweep guard server s (.checking container phase rest found)
  cases hprogress : ImageCheck.resume container.image (server.answers s) phase with
  | running next =>
    rw [hprogress] at hcheck
    rw [resume_of_running rest found hprogress] at hstep
    have hrank := ImageCheck.rank_resume hprogress
    rw [hcheck]
    exact hstep.trans (carryOn_checking _ container next rest found)
  | finished result =>
    rw [hprogress] at hcheck
    rw [hcheck]
    cases result with
    | ok newer =>
      rw [resume_of_finished rest found hprogress] at hstep
      exact hstep
    | error e =>
      rw [resume, hprogress] at hstep
      exact hstep
termination_by phase.rank

/-- What is left of a sweep reports the containers that are left. -/
theorem carryOn_advance_eq (s : σ) (found : List String) (containers : List Summary) :
    carryOn guard server s (advance found containers) =
      .ok (.names (found ++ (reported guard server s containers).map Summary.name)) := by
  induction containers generalizing s found with
  | nil =>
    rw [reported, List.map_nil, List.append_nil]
    rfl
  | cons container rest ih =>
    rw [advance, reported]
    split_ifs with hremote
    · rw [carryOn_checking, ih]
      dsimp only [Operation.checkForUpdate]
      split_ifs
      · rw [List.map_cons, List.append_assoc]
        rfl
      · rfl
    · exact ih s found

/-- **A sweep succeeds when it has its list**, whatever becomes of the checks. -/
theorem run_eq_reported (guard : Guard) (server : Server σ) {s : σ} {records : List ListingRecord}
    (listed : (server s (.list false)).2 = .ok records) :
    (Operation.run guard server s .checkForUpdates).2 =
      .ok (.names ((reported guard server (server s (.list false)).1
        (records.map ListingRecord.summary)).map Summary.name)) := by
  have hresume : resume (server.answers s) .listing =
      advance [] (records.map ListingRecord.summary) := by
    rw [resume, Operation.Server.answers, listed]
  rw [Operation.checkForUpdates, run_sweep, hresume, carryOn_advance_eq]
  rfl

/-- **Container by container.** Two daemons that have been asked the same about all references but
some are asked the same about them by every check. -/
theorem filter_reported_eq {s : σ} {t : τ} {X : Set String} [DecidablePred (· ∈ X)]
    (apart : other.KeepsApart t) (agree : server.AgreeOn s other t Xᶜ)
    (containers : List Summary) {earlier earlier' : List Request}
    (same : ∀ image ∉ X, about image earlier = about image earlier') :
    (reported guard server (server.afterAll s earlier) containers).filter (·.image ∉ X) =
      (reported guard other (other.afterAll t earlier') containers).filter (·.image ∉ X) := by
  induction containers generalizing earlier earlier' with
  | nil => rfl
  | cons container rest ih =>
    rw [reported, reported]
    split_ifs with hremote
    · by_cases hX : container.image ∈ X
      · -- the two checks may differ, but no other reference is concerned
        obtain ⟨requests, habout, hstate⟩ := exists_requests_of_check guard server
          (server.afterAll s earlier) container.image
        obtain ⟨requests', habout', hstate'⟩ := exists_requests_of_check guard other
          (other.afterAll t earlier') container.image
        have hsame : ∀ image ∉ X, about image (earlier ++ requests) =
            about image (earlier' ++ requests') := by
          intro image himage
          have hne : container.image ≠ image := fun h => himage (h ▸ hX)
          rw [about_append, about_append, about_of_others habout hne, about_of_others habout' hne,
            same image himage]
        have hout (more : List Summary) : (container :: more).filter (·.image ∉ X) =
            more.filter (·.image ∉ X) :=
          List.filter_cons_of_neg (by rw [decide_eq_true_eq, not_not]; exact hX)
        dsimp only
        rw [hstate, hstate', ← afterAll_append, ← afterAll_append]
        split_ifs
        · exact (hout _).trans ((ih hsame).trans (hout _).symm)
        · exact (hout _).trans (ih hsame)
        · exact (ih hsame).trans (hout _).symm
        · exact ih hsame
      · -- both checks are answered alike
        have halike : ∀ requests, (∀ request ∈ requests, request.image? = some container.image) →
            ∀ request, request.image? = some container.image →
              (server (server.afterAll (server.afterAll s earlier) requests) request).2 =
                (other (other.afterAll (other.afterAll t earlier') requests) request).2 := by
          intro requests _ request himage
          rw [← afterAll_append, ← afterAll_append]
          apply apart.answer_eq agree hX himage
          rw [about_append, about_append, same _ hX]
        obtain ⟨requests, outcome, habout, hrun, hrun'⟩ :=
          @run_check_congr σ τ guard server other container.image _ _ .before halike
        have hsame : ∀ image ∉ X, about image (earlier ++ requests) =
            about image (earlier' ++ requests) := by
          intro image himage
          rw [about_append, about_append, same image himage]
        dsimp only [Operation.checkForUpdate]
        rw [hrun, hrun', ← afterAll_append, ← afterAll_append]
        split_ifs
        · rw [List.filter_cons, List.filter_cons, ih hsame]
        · exact ih hsame
    · exact ih same

end Reports

/-- What a sweep reports stands in the list, in the order of the list. -/
theorem reported_sublist {σ : Type} (guard : Guard) (server : Server σ) (s : σ)
    (containers : List Summary) : (reported guard server s containers).Sublist containers := by
  induction containers generalizing s with
  | nil => exact List.Sublist.refl _
  | cons container rest ih =>
    rw [reported]
    dsimp only
    split_ifs
    · exact (ih _).cons_cons container
    · exact (ih _).cons container
    · exact (ih s).cons container

/-- **A failing image does not disturb a sweep.** Two sweeps that hear the same list, and different
things about the references in `X` only, both succeed, and of the containers with other images they
report the same in the same order. Whatever a sweep hears, it asks for the list and about images
that name a registry and belong to a container in the list, it pulls no image before it was told
that the image is there, and only the list can make it fail. -/
theorem sweep_undisturbed {σ τ : Type} {server : Server σ} {other : Server τ} {s : σ} {t : τ}
    {records : List ListingRecord} (guard : Guard) (X : Set String) [DecidablePred (· ∈ X)]
    (apart : other.KeepsApart t) (agree : server.AgreeOn s other t Xᶜ)
    (listed : (server s (.list false)).2 = .ok records)
    (listed' : (other t (.list false)).2 = .ok records) :
    (∃ found found' : List Summary,
      found = reported guard server (server s (.list false)).1
        (records.map ListingRecord.summary) ∧
      found' = reported guard other (other t (.list false)).1
        (records.map ListingRecord.summary) ∧
      (Operation.run guard server s .checkForUpdates).2 = .ok (.names (found.map Summary.name)) ∧
      (Operation.run guard other t .checkForUpdates).2 = .ok (.names (found'.map Summary.name)) ∧
      found.Sublist (records.map ListingRecord.summary) ∧
      found'.Sublist (records.map ListingRecord.summary) ∧
      found.filter (·.image ∉ X) = found'.filter (·.image ∉ X)) ∧
    ∀ heard op, Path guard .checkForUpdates heard op →
      (∀ request ∈ heard.map Exchange.request ++ op.request?.toList, request = .list false ∨
        ∃ told more, heard = ⟨.list false, .ok told⟩ :: more ∧ Concerns told request) ∧
      (∀ image, op.request? = some (.pull image) → ∃ before id more,
        heard = before ++ [⟨.listImages image, .ok (id :: more)⟩]) ∧
      (∀ answers e, op.resume guard answers = .finished (.error e) →
        heard = [] ∧ ∃ fault, answers (.list false) = .error fault ∧ e = .ofFault fault) := by
  refine ⟨⟨_, _, rfl, rfl, run_eq_reported guard server listed, run_eq_reported guard other listed',
    reported_sublist .., reported_sublist .., ?_⟩, ?_⟩
  · -- both daemons were asked for the list, and about no reference
    exact @filter_reported_eq σ τ guard server other s t X _ apart agree _ [.list false]
      [.list false] fun _ _ => rfl
  · intro heard op path
    obtain ⟨phase, rfl, hstage⟩ := stage_of_path path
    refine ⟨hstage.asked, fun image hpull => hstage.pulls (Option.some.inj hpull), ?_⟩
    intro answers e hfinished
    simp only [Operation.resume, Progress.map] at hfinished
    split at hfinished
    · cases hfinished
    · rename_i result hresult
      cases result with
      | ok names => cases hfinished
      | error e' =>
        cases hfinished
        exact hstage.failed hresult

end Sweep

/-! ### Outages -/

namespace Operation.Server

variable {σ α : Type} {server : Server σ} {view : σ → String → α}

/-- **A daemon with something to show for each reference**, which alone decides what it answers
about the reference and which no request about another one changes. -/
structure ShowsApart (server : Server σ) (view : σ → String → α) : Prop where
  /-- What it shows decides the answer. -/
  answer_eq : ∀ {s s' request image}, request.image? = some image → view s image = view s' image →
    (server s request).2 = (server s' request).2
  /-- What it shows decides what it shows next. -/
  view_eq : ∀ {s s' request image}, request.image? = some image → view s image = view s' image →
    view (server s request).1 image = view (server s' request).1 image
  /-- Requests about something else change nothing. -/
  view_of_others : ∀ {s request image}, request.image? ≠ some image →
    view (server s request).1 image = view s image

/-- Only the requests about a reference count for what is shown of it. -/
theorem ShowsApart.view_afterAll (h : server.ShowsApart view) {image : String} {s s' : σ}
    (same : view s image = view s' image) (earlier : List Request) :
    view (server.afterAll s earlier) image =
      view (server.afterAll s' (about image earlier)) image := by
  induction earlier generalizing s s' with
  | nil => exact same
  | cons request rest ih =>
    by_cases himage : request.image? = some image
    · have habout : about image (request :: rest) = request :: about image rest :=
        List.filter_cons_of_pos (decide_eq_true himage)
      rw [habout]
      exact ih (h.view_eq himage same)
    · have habout : about image (request :: rest) = about image rest :=
        List.filter_cons_of_neg (by rw [decide_eq_true_eq]; exact himage)
      rw [habout]
      exact ih ((h.view_of_others himage).trans same)

theorem ShowsApart.keepsApart (h : server.ShowsApart view) (s : σ) : server.KeepsApart s := by
  intro request image himage earlier earlier' same
  apply h.answer_eq himage
  rw [h.view_afterAll rfl earlier, h.view_afterAll rfl earlier', same]

/-- A daemon that fails whenever it is asked about a reference. -/
def outage (server : Server σ) (down : String) : Server σ := fun s request =>
  if request.image? = some down then (s, .error .timeout) else server s request

theorem outage_of_ne {request : Request} {down : String} (h : request.image? ≠ some down) (s : σ) :
    server.outage down s request = server s request :=
  if_neg h

theorem ShowsApart.outage (h : server.ShowsApart view) (down : String) :
    (server.outage down).ShowsApart view where
  answer_eq {s s' request image} himage same := by
    unfold Server.outage
    split_ifs
    · rfl
    · exact h.answer_eq himage same
  view_eq {s s' request image} himage same := by
    unfold Server.outage
    split_ifs
    · exact same
    · exact h.view_eq himage same
  view_of_others {s request image} himage := by
    unfold Server.outage
    split_ifs
    · rfl
    · exact h.view_of_others himage

/-- Requests about other references are served as if there were no outage. -/
theorem afterAll_outage {down : String} {requests : List Request}
    (h : ∀ request ∈ requests, request.image? ≠ some down) (s : σ) :
    (server.outage down).afterAll s requests = server.afterAll s requests := by
  induction requests generalizing s with
  | nil => rfl
  | cons request rest ih =>
    rw [afterAll, List.foldl_cons, outage_of_ne (h request List.mem_cons_self)]
    exact ih (fun _ hmem => h _ (List.mem_cons_of_mem _ hmem)) _

/-- **An outage of one reference** is not seen by those who ask about the others. -/
theorem ShowsApart.agreeOn_outage (h : server.ShowsApart view) (s : σ) (down : String) :
    server.AgreeOn s (server.outage down) s {image | image = down}ᶜ := by
  intro request image hne himage earlier
  have hdown : ∀ request : Request, request.image? = some image → request.image? ≠ some down :=
    fun _ hsome hsome' => hne (Option.some.inj (hsome.symm.trans hsome'))
  have habout : ∀ request ∈ about image earlier, request.image? ≠ some down :=
    fun request hmem => hdown request (of_decide_eq_true (List.mem_filter.mp hmem).2)
  rw [outage_of_ne (hdown request himage)]
  apply h.answer_eq himage
  rw [h.view_afterAll rfl, (h.outage down).view_afterAll rfl, afterAll_outage habout]

end Operation.Server

namespace ScriptedDaemon

open Operation.Server

/-- A change of a container leaves the local images as they are. -/
theorem localImages_change (daemon : ScriptedDaemon) (reference : String)
    (f : Resident → Except DaemonFault Resident) :
    (daemon.change reference f).1.localImages = daemon.localImages := by
  unfold change
  split
  · split <;> rfl
  · rfl

/-- Only a pull of a reference changes its local images. -/
theorem localIds_execute_of_ne (daemon : ScriptedDaemon) {request : Request} {image : String}
    (h : request ≠ .pull image) :
    (daemon.execute request).1.localIds image = daemon.localIds image := by
  have hlocal (h : (daemon.execute request).1.localImages = daemon.localImages) :
      (daemon.execute request).1.localIds image = daemon.localIds image := by
    rw [localIds, h, localIds]
  cases request with
  | pull other =>
    have hne : image ≠ other := fun hsame => h (by rw [hsame])
    exact (Sweep.ImageStore.localIds_pull imageStore_execute daemon other image).trans (if_neg hne)
  | stop reference grace => exact hlocal (localImages_change ..)
  | restart reference grace => exact hlocal (localImages_change ..)
  | start reference => exact hlocal (localImages_change ..)
  | connect network container aliases => exact hlocal (localImages_change ..)
  | remove reference force =>
    apply hlocal
    unfold execute
    dsimp only
    split
    · split <;> rfl
    · rfl
  | create name config =>
    apply hlocal
    unfold execute
    dsimp only
    split <;> rfl
  | list all => rfl
  | inspect reference => rfl
  | listImages other => rfl

/-- The daemon in memory shows the local images and those in the registry. -/
theorem showsApart_execute : ShowsApart execute
    fun daemon image => (daemon.localIds image, daemon.registryIds? image) where
  answer_eq {s s' request image} himage same := by
    cases request with
    | listImages other =>
      cases himage
      exact congrArg Except.ok (congrArg Prod.fst same)
    | pull other => rfl
    | _ => cases himage
  view_eq {s s' request image} himage same := by
    cases request with
    | listImages other => exact same
    | pull other =>
      obtain rfl := Option.some.inj himage
      obtain ⟨hlocal, hregistry⟩ := Prod.mk.inj same
      have hpull (daemon : ScriptedDaemon) : (daemon.execute (.pull other)).1.localIds other =
          (daemon.registryIds? other).getD (daemon.localIds other) :=
        (Sweep.ImageStore.localIds_pull imageStore_execute daemon other other).trans (if_pos rfl)
      rw [hpull, hpull, Sweep.ImageStore.registryIds?_eq imageStore_execute,
        Sweep.ImageStore.registryIds?_eq imageStore_execute, hlocal, hregistry]
    | _ => cases himage
  view_of_others {s request image} himage := by
    have hne : request ≠ .pull image := fun h => himage (by rw [h]; rfl)
    rw [localIds_execute_of_ne s hne, Sweep.ImageStore.registryIds?_eq imageStore_execute]

/-- A daemon on which the images of both `api` and `web` are outdated. -/
def bothOutdated : ScriptedDaemon :=
  let resident (id name image : String) : Resident :=
    { info := { id := some id, name := some name, config := some { image := some image } }
      running := true }
  { residents := [("c1", resident "c1" "/api" "ghcr.io/org/api:1"),
      ("c2", resident "c2" "/web" "ghcr.io/org/web:1")]
    localImages := [("ghcr.io/org/api:1", ["sha256:a1"]), ("ghcr.io/org/web:1", ["sha256:w1"])]
    registryImages := [("ghcr.io/org/api:1", ["sha256:a2"]), ("ghcr.io/org/web:1", ["sha256:w2"])] }

/-- While the daemon fails for the image of `api`, a sweep still succeeds, and of the other
containers it reports `web`. -/
theorem sweep_undisturbed_outage : ∃ found : List Summary,
    (Operation.run ⟨[]⟩ (outage execute "ghcr.io/org/api:1") bothOutdated .checkForUpdates).2 =
      .ok (.names (found.map Summary.name)) ∧
    (found.filter (·.image ≠ "ghcr.io/org/api:1")).map Summary.name = ["web"] := by
  obtain ⟨⟨found, found', -, -, hrun, hrun', hsub, -, hsame⟩, -⟩ :=
    Sweep.sweep_undisturbed ⟨[]⟩ {image | image = "ghcr.io/org/api:1"}
      ((showsApart_execute.outage "ghcr.io/org/api:1").keepsApart bothOutdated)
      (showsApart_execute.agreeOn_outage bothOutdated "ghcr.io/org/api:1") rfl rfl
  have hnames : (Operation.run ⟨[]⟩ execute bothOutdated .checkForUpdates).2 =
      .ok (.names ["api", "web"]) :=
    Sweep.run_checkForUpdates imageStore_execute ⟨[]⟩ rfl
  -- without the outage both are found
  have hfound : found.map Summary.name = ["api", "web"] := by
    injection hrun.symm.trans hnames with hvalue
    injection hvalue
  have hall := hsub.eq_of_length (by
    rw [← List.length_map (f := Summary.name), hfound]
    rfl)
  refine ⟨found', hrun', ?_⟩
  rw [hall] at hsame
  exact congrArg (List.map Summary.name) hsame.symm

end ScriptedDaemon

end Dockmaster
