import Dockmaster.Daemon.Scripted
import Dockmaster.Proofs.Operation.Alone
import Mathlib.Tactic.SplitIfs

/-!
# What a sweep reports

A sweep asks for every running container whose image names a registry whether a pull brings in
another image than the local one. The pull itself makes the local image the new one. So the check of
one container changes what the checks of the later ones find: of the outdated containers that share
an image, only the first in the listing is reported (`sweep_reports`), and the sweep reports all
outdated containers exactly if no two of them share an image.

The proof goes container by container. Carrying out one check (`carryOn_check`) leaves the images as
`afterCheck` says; then the image that was checked counts as outdated no more, and no other image
changes (`isOutdated_afterCheck`).
-/

namespace Dockmaster

namespace Sweep

/-! ### Outdated images -/

section Images

variable (localIds : String → List String) (registryIds? : String → Option (List String))

/-- Whether there is a local image of a reference, and the registry has another one. -/
def isOutdated (image : String) : Bool :=
  match localIds image, registryIds? image with
  | old :: _, some (new :: _) => new ≠ old
  | _, _ => false

/-- Whether the image of a container names a registry and is outdated. -/
def outdated (container : Summary) : Bool :=
  Image.isRemote container.image && isOutdated localIds registryIds? container.image

/-- The local images after a reference was checked. Nothing is pulled if there was no local image,
and a reference that the registry does not have keeps its images. -/
def afterCheck (image other : String) : List String :=
  if other = image ∧ localIds image ≠ [] then (registryIds? image).getD (localIds image)
  else localIds other

/-- **An image that was checked is up to date**, and the others are what they were. -/
theorem isOutdated_afterCheck (image other : String) :
    isOutdated (afterCheck localIds registryIds? image) registryIds? other =
      (decide (other ≠ image) && isOutdated localIds registryIds? other) := by
  unfold isOutdated afterCheck
  by_cases hother : other = image
  · subst hother
    cases hlocal : localIds other with
    | nil => simp
    | cons old more =>
      cases hregistry : registryIds? other with
      | none => simp
      | some ids =>
        cases ids <;> simp
  · simp [hother]

end Images

/-! ### Containers that share an image -/

/-- Of the containers that share an image, the first. -/
def firstOfImage : List Summary → List Summary :=
  List.eraseDupsBy fun a b => a.image = b.image

theorem firstOfImage_cons (container : Summary) (rest : List Summary) :
    firstOfImage (container :: rest) =
      container :: firstOfImage (rest.filter (·.image ≠ container.image)) := by
  unfold firstOfImage
  rw [List.eraseDupsBy_cons]
  simp

theorem firstOfImage_sublist : ∀ containers, (firstOfImage containers).Sublist containers
  | [] => List.Sublist.refl _
  | container :: rest => by
    rw [firstOfImage_cons]
    exact ((firstOfImage_sublist _).trans List.filter_sublist).cons_cons container
termination_by containers => containers.length
decreasing_by exact Nat.lt_succ_of_le (List.length_filter_le _ _)

/-- Nothing is left out iff no two containers share an image. -/
theorem firstOfImage_eq_self_iff (containers : List Summary) :
    firstOfImage containers = containers ↔
      containers.Pairwise fun a b => a.image ≠ b.image := by
  induction containers with
  | nil => exact ⟨fun _ => .nil, fun _ => rfl⟩
  | cons container rest ih =>
    have hfilter : rest.filter (·.image ≠ container.image) = rest ↔
        ∀ other ∈ rest, container.image ≠ other.image := by
      simp only [List.filter_eq_self, decide_eq_true_eq]
      exact forall₂_congr fun _ _ => ne_comm
    rw [firstOfImage_cons, List.pairwise_cons, ← hfilter, ← ih, List.cons.injEq]
    constructor
    · rintro ⟨-, hrest⟩
      -- what is left of the rest is as long as the rest, so nothing was taken from it
      have hshorter := (firstOfImage_sublist (rest.filter (·.image ≠ container.image))).length_le
      rw [hrest] at hshorter
      have hall := List.filter_sublist.eq_of_length_le hshorter
      rw [hall] at hrest
      exact ⟨hall, hrest⟩
    · rintro ⟨hall, hrest⟩
      rw [hall]
      exact ⟨rfl, hrest⟩

/-! ### Sweeps -/

/-- **A daemon that does not fail** as long as images are looked at and pulled, with its local
images and those that the registry has. -/
structure ImageStore {σ : Type} (server : Operation.Server σ) (localIds : σ → String → List String)
    (registryIds? : σ → String → Option (List String)) : Prop where
  /-- The local images are told as they are. -/
  told : ∀ s image, (server s (.listImages image)).2 = .ok (localIds s image)
  /-- A pull succeeds. -/
  pulled : ∀ s image, (server s (.pull image)).2 = .ok ()
  /-- A pull makes the local images of a reference those that the registry has, if it has the
  reference, and leaves all others as they are. -/
  localIds_pull : ∀ s image other, localIds (server s (.pull image)).1 other =
    if other = image then (registryIds? s image).getD (localIds s image) else localIds s other
  /-- To look at images changes none. -/
  localIds_listImages : ∀ s image, localIds (server s (.listImages image)).1 = localIds s
  /-- To list containers changes no image. -/
  localIds_list : ∀ s all, localIds (server s (.list all)).1 = localIds s
  /-- The registry stays as it is. -/
  registryIds?_eq : ∀ s request, registryIds? (server s request).1 = registryIds? s

section Run

variable {σ : Type} {guard : Guard} {server : Operation.Server σ}
  {localIds : σ → String → List String} {registryIds? : σ → String → Option (List String)}

/-- The outcome of a sweep that goes on. -/
def carryOn (guard : Guard) (server : Operation.Server σ) (s : σ) :
    Progress Phase (Except ServiceError (List String)) → Outcome
  | .running phase => (Operation.run guard server s (.sweep phase)).2
  | .finished result => result.map .names

theorem run_sweep (guard : Guard) (server : Operation.Server σ) (s : σ) (phase : Phase) :
    (Operation.run guard server s (.sweep phase)).2 =
      carryOn guard server (server s phase.request).1
        (resume (server.answers s) phase) := by
  have hresume : (Operation.sweep phase).resume guard (server.answers s) =
      (resume (server.answers s) phase).map .sweep (·.map .names) := rfl
  generalize resume (server.answers s) phase = progress at hresume ⊢
  cases progress with
  | running next =>
    rw [Operation.run_of_running hresume]
    rfl
  | finished result =>
    rw [Operation.run_of_finished hresume]
    rfl

theorem resume_of_running {answers : Answers} {container : Summary} {check next : ImageCheck.Phase}
    (rest : List Summary) (found : List String)
    (h : ImageCheck.resume container.image answers check = .running next) :
    resume answers (.checking container check rest found) =
      .running (.checking container next rest found) := by
  rw [resume, h]

theorem resume_of_finished {answers : Answers} {container : Summary} {check : ImageCheck.Phase}
    {newer : Bool} (rest : List Summary) (found : List String)
    (h : ImageCheck.resume container.image answers check = .finished (.ok newer)) :
    resume answers (.checking container check rest found) =
      advance (if newer then found ++ [container.name] else found) rest := by
  rw [resume, h]
  cases newer <;> rfl

/-- Without a local image a check is over at once. -/
theorem ImageStore.resume_before (store : ImageStore server localIds registryIds?) (s : σ)
    (image : String) :
    ImageCheck.resume image (server.answers s) .before =
      match localIds s image with
      | [] => .finished (.ok false)
      | old :: _ => .running (.pulling old) := by
  rw [ImageCheck.resume, Operation.Server.answers, store.told]
  cases localIds s image <;> rfl

theorem ImageStore.resume_pulling (store : ImageStore server localIds registryIds?) (s : σ)
    (image old : String) :
    ImageCheck.resume image (server.answers s) (.pulling old) = .running (.after old) := by
  rw [ImageCheck.resume, Operation.Server.answers, store.pulled]

/-- The last phase of a check compares the local image with the one from before. -/
theorem ImageStore.resume_after (store : ImageStore server localIds registryIds?) (s : σ)
    (image old : String) :
    ImageCheck.resume image (server.answers s) (.after old) =
      .finished (.ok ((localIds s image).head?.any fun new => new ≠ old)) := by
  rw [ImageCheck.resume, Operation.Server.answers, store.told]
  cases localIds s image with
  | nil => rfl
  | cons new more => simp

/-- **One check.** It adds the container to what was found if its image is outdated. -/
theorem carryOn_check (store : ImageStore server localIds registryIds?) (s : σ)
    (container : Summary) (rest : List Summary) (found : List String) :
    ∃ s', localIds s' = afterCheck (localIds s) (registryIds? s) container.image ∧
      registryIds? s' = registryIds? s ∧
      carryOn guard server s (.running (.checking container .before rest found)) =
        carryOn guard server s' (advance
          (if isOutdated (localIds s) (registryIds? s) container.image
            then found ++ [container.name] else found) rest) := by
  have hbefore := store.resume_before s container.image
  cases hlocal : localIds s container.image with
  | nil =>
    -- there is nothing to compare with, and nothing is pulled
    rw [hlocal] at hbefore
    have houtdated : isOutdated (localIds s) (registryIds? s) container.image = false := by
      rw [isOutdated, hlocal]
    refine ⟨(server s (.listImages container.image)).1, ?_, store.registryIds?_eq _ _, ?_⟩
    · rw [store.localIds_listImages]
      funext other
      simp [afterCheck, hlocal]
    · rw [houtdated]
      exact (run_sweep ..).trans (congrArg _ (resume_of_finished rest found hbefore))
  | cons old more =>
    rw [hlocal] at hbefore
    let looked := (server s (.listImages container.image)).1
    let pulled := (server looked (.pull container.image)).1
    have hpulled (other : String) : localIds pulled other =
        if other = container.image then (registryIds? s container.image).getD (old :: more)
        else localIds s other := by
      rw [store.localIds_pull, store.registryIds?_eq, store.localIds_listImages, hlocal]
    have hafter : ImageCheck.resume container.image (server.answers pulled) (.after old) =
        .finished (.ok (isOutdated (localIds s) (registryIds? s) container.image)) := by
      rw [store.resume_after, hpulled, if_pos rfl, isOutdated, hlocal]
      cases registryIds? s container.image with
      | none => simp
      | some ids => cases ids <;> simp
    refine ⟨(server pulled (.listImages container.image)).1, ?_, ?_, ?_⟩
    · rw [store.localIds_listImages]
      funext other
      rw [hpulled, afterCheck, hlocal]
      simp
    · rw [store.registryIds?_eq, store.registryIds?_eq, store.registryIds?_eq]
    · have hpulling := store.resume_pulling looked container.image old
      calc carryOn guard server s (.running (.checking container .before rest found))
        _ = carryOn guard server looked
              (.running (.checking container (.pulling old) rest found)) :=
          (run_sweep ..).trans (congrArg _ (resume_of_running rest found hbefore))
        _ = carryOn guard server pulled (.running (.checking container (.after old) rest found)) :=
          (run_sweep ..).trans (congrArg _ (resume_of_running rest found hpulling))
        _ = _ := (run_sweep ..).trans (congrArg _ (resume_of_finished rest found hafter))

/-- After a check, the containers with the image that was checked are outdated no more. -/
theorem filter_outdated_afterCheck (localIds : String → List String)
    (registryIds? : String → Option (List String)) (image : String) (containers : List Summary) :
    containers.filter (outdated (afterCheck localIds registryIds? image) registryIds?) =
      (containers.filter (outdated localIds registryIds?)).filter (·.image ≠ image) := by
  rw [List.filter_filter]
  apply List.filter_congr
  intro container _
  unfold outdated
  rw [isOutdated_afterCheck, Bool.and_left_comm]

/-- **All checks.** What was found so far is followed by the outdated containers that are left, and
of those that share an image by the first. -/
theorem carryOn_advance (store : ImageStore server localIds registryIds?) (s : σ)
    (found : List String) (containers : List Summary) :
    carryOn guard server s (advance found containers) =
      .ok (.names (found ++ (firstOfImage
        (containers.filter (outdated (localIds s) (registryIds? s)))).map Summary.name)) := by
  induction containers generalizing s found with
  | nil => simp [advance, carryOn, firstOfImage, Except.map]
  | cons container rest ih =>
    rw [advance]
    split_ifs with hremote
    · obtain ⟨s', hlocal, hregistry, hcheck⟩ := carryOn_check store s container rest found
      have hself : outdated (localIds s) (registryIds? s) container =
          isOutdated (localIds s) (registryIds? s) container.image := by
        rw [outdated, hremote, Bool.true_and]
      rw [hcheck, ih, hlocal, hregistry, filter_outdated_afterCheck, List.filter_cons, hself]
      cases houtdated : isOutdated (localIds s) (registryIds? s) container.image with
      | true =>
        rw [if_pos rfl, if_pos rfl, firstOfImage_cons, List.map_cons, List.append_assoc]
        rfl
      | false =>
        -- nor is any other container with the image outdated
        have hothers : ∀ other ∈ rest.filter (outdated (localIds s) (registryIds? s)),
            decide (other.image ≠ container.image) = true := by
          intro other hmem
          rw [decide_eq_true_eq]
          intro hsame
          have hother := (List.mem_filter.mp hmem).2
          rw [outdated, hsame, houtdated, Bool.and_false] at hother
          cases hother
        rw [if_neg Bool.false_ne_true, if_neg Bool.false_ne_true, List.filter_eq_self.mpr hothers]
    · have hself : ¬ outdated (localIds s) (registryIds? s) container = true := by
        rw [outdated, Bool.eq_false_iff.mpr hremote]
        exact Bool.false_ne_true
      rw [ih, List.filter_cons_of_neg hself]

/-- The names that a sweep reports. -/
theorem run_checkForUpdates (store : ImageStore server localIds registryIds?) (guard : Guard)
    {s : σ} {records : List ListingRecord} (listed : (server s (.list false)).2 = .ok records) :
    (Operation.run guard server s .checkForUpdates).2 =
      .ok (.names ((firstOfImage ((records.map ListingRecord.summary).filter
        (outdated (localIds s) (registryIds? s)))).map Summary.name)) := by
  have hresume : resume (server.answers s) .listing =
      advance [] (records.map ListingRecord.summary) := by
    rw [resume, Operation.Server.answers, listed]
  rw [Operation.checkForUpdates, run_sweep, hresume, carryOn_advance store]
  rw [Phase.request, store.localIds_list, store.registryIds?_eq, List.nil_append]

/-- **What a sweep reports.** It succeeds, and names in the order of the listing the containers of
which the image names a registry, is there when the sweep starts, and is another one in the registry
then; but of those that share an image only the first. So it names all of them exactly if no two of
them share an image. -/
theorem sweep_reports (store : ImageStore server localIds registryIds?) (guard : Guard) {s : σ}
    {records : List ListingRecord} (listed : (server s (.list false)).2 = .ok records) :
    (Operation.run guard server s .checkForUpdates).2 =
      .ok (.names ((firstOfImage ((records.map ListingRecord.summary).filter
        (outdated (localIds s) (registryIds? s)))).map Summary.name)) ∧
    ((Operation.run guard server s .checkForUpdates).2 =
      .ok (.names (((records.map ListingRecord.summary).filter
        (outdated (localIds s) (registryIds? s))).map Summary.name)) ↔
      ((records.map ListingRecord.summary).filter (outdated (localIds s) (registryIds? s))).Pairwise
        fun a b => a.image ≠ b.image) := by
  have hrun := run_checkForUpdates store guard listed
  generalize (records.map ListingRecord.summary).filter (outdated (localIds s) (registryIds? s)) =
    containers at hrun ⊢
  refine ⟨hrun, ?_⟩
  rw [hrun, ← firstOfImage_eq_self_iff]
  constructor
  · intro hsame
    have hnames : (firstOfImage containers).map Summary.name = containers.map Summary.name := by
      injection hsame with hvalue
      injection hvalue
    have hlength := congrArg List.length hnames
    rw [List.length_map, List.length_map] at hlength
    exact (firstOfImage_sublist containers).eq_of_length hlength
  · intro hself
    rw [hself]

end Run

end Sweep

/-! ### The daemon in memory -/

namespace ScriptedDaemon

/-- The ids of the local images of a reference. -/
def localIds (daemon : ScriptedDaemon) (image : String) : List String :=
  (daemon.localImages.find? image).getD []

/-- The ids of the images of a reference in the registry, if it has the reference. -/
def registryIds? (daemon : ScriptedDaemon) (image : String) : Option (List String) :=
  daemon.registryImages.find? image

/-- A change of a container leaves the registry as it is. -/
theorem registryImages_change (daemon : ScriptedDaemon) (reference : String)
    (f : Resident → Except DaemonFault Resident) :
    (daemon.change reference f).1.registryImages = daemon.registryImages := by
  unfold change
  split
  · split <;> rfl
  · rfl

/-- No request changes the registry. -/
theorem registryImages_execute (daemon : ScriptedDaemon) (request : Request) :
    (daemon.execute request).1.registryImages = daemon.registryImages := by
  cases request with
  | stop reference grace => exact registryImages_change ..
  | restart reference grace => exact registryImages_change ..
  | start reference => exact registryImages_change ..
  | connect network container aliases => exact registryImages_change ..
  | remove reference force =>
    unfold execute
    dsimp only
    split
    · split <;> rfl
    · rfl
  | create name config =>
    unfold execute
    dsimp only
    split <;> rfl
  | _ => rfl

/-- **The daemon in memory does not fail** unless it is told to. -/
theorem imageStore_execute : Sweep.ImageStore execute localIds registryIds? where
  told _ _ := rfl
  pulled _ _ := rfl
  localIds_pull daemon image other := by
    show ((daemon.pulled image).find? other).getD [] = _
    unfold pulled registryIds? localIds
    cases hregistry : daemon.registryImages.find? image with
    | none =>
      split_ifs with hother
      · rw [hother]
        rfl
      · rfl
    | some ids =>
      dsimp only
      split_ifs with hother
      · rw [hother, Directory.find?_put_self]
        rfl
      · rw [Directory.find?_put_of_ne hother]
  localIds_listImages _ _ := rfl
  localIds_list _ _ := rfl
  registryIds?_eq daemon request := by
    funext image
    unfold registryIds?
    rw [registryImages_execute]

/-- A daemon on which `api` and `worker` share an image that is outdated. -/
def sharing : ScriptedDaemon :=
  let resident (id name image : String) : Resident :=
    { info := { id := some id, name := some name, config := some { image := some image } }
      running := true }
  { residents := [("c1", resident "c1" "/api" "ghcr.io/org/api:1"),
      ("c2", resident "c2" "/worker" "ghcr.io/org/api:1"), ("c3", resident "c3" "/cache" "redis:7")]
    localImages := [("ghcr.io/org/api:1", ["sha256:a1"])]
    registryImages := [("ghcr.io/org/api:1", ["sha256:a2"])] }

theorem sweep_reports_sharing :
    (Operation.run ⟨[]⟩ execute sharing .checkForUpdates).2 = .ok (.names ["api"]) := by
  exact (Sweep.sweep_reports imageStore_execute ⟨[]⟩ rfl).1

/-- Both containers are outdated when the sweep starts, and it reports one. -/
theorem sweep_misses_worker :
    ∃ records, (execute sharing (.list false)).2 = .ok records ∧
      ((records.map ListingRecord.summary).filter
        (Sweep.outdated sharing.localIds sharing.registryIds?)).map Summary.name =
          ["api", "worker"] ∧
      (Operation.run ⟨[]⟩ execute sharing .checkForUpdates).2 ≠ .ok (.names ["api", "worker"]) := by
  have hlisted : (execute sharing (.list false)).2 = .ok _ := rfl
  refine ⟨_, hlisted, by decide, ?_⟩
  have hrun : (Operation.run ⟨[]⟩ execute sharing .checkForUpdates).2 = .ok (.names ["api"]) :=
    Sweep.run_checkForUpdates imageStore_execute ⟨[]⟩ hlisted
  rw [hrun]
  simp

end ScriptedDaemon

end Dockmaster
