import Dockmaster.Daemon.Request
import Dockmaster.Error
import Dockmaster.Image
import Dockmaster.Operation.Progress

/-!
# Looking for newer images

Whether pulling an image brings in another one than the local image of that reference, and the sweep
over all running containers that asks this for every image which names a registry. A sweep goes on
when an image cannot be checked; it fails only if the containers cannot be listed.
-/

namespace Dockmaster

/-! ### One image -/

namespace ImageCheck

/-- The phases of a check. -/
inductive Phase where
  /-- The local images are listed. -/
  | before
  /-- The image is pulled; so far its first local id is this. -/
  | pulling (oldId : String)
  /-- The local images are listed again. -/
  | after (oldId : String)
  deriving DecidableEq, Repr

/-- What a phase asks of the daemon. -/
def Phase.request (image : String) : Phase → Request
  | .before => .listImages image
  | .pulling _ => .pull image
  | .after _ => .listImages image

/-- What comes after a phase. Without a local image there is nothing to update and nothing is
pulled. -/
def resume (image : String) (answers : Answers) :
    Phase → Progress Phase (Except ServiceError Bool)
  | .before =>
    match answers (.listImages image) with
    | .ok [] => .finished (.ok false)
    | .ok (oldId :: _) => .running (.pulling oldId)
    | .error fault => .finished (.error (.ofFault fault))
  | .pulling oldId =>
    match answers (.pull image) with
    | .ok _ => .running (.after oldId)
    | .error fault => .finished (.error (.ofFault fault))
  | .after oldId =>
    match answers (.listImages image) with
    | .ok [] => .finished (.ok false)
    | .ok (newId :: _) => .finished (.ok (newId ≠ oldId))
    | .error fault => .finished (.error (.ofFault fault))

/-- How far a phase is from the end. -/
def Phase.rank : Phase → Nat
  | .before => 2
  | .pulling _ => 1
  | .after _ => 0

/-- Every step brings a check nearer to its end. -/
theorem rank_resume {image : String} {answers : Answers} {phase next : Phase}
    (h : resume image answers phase = .running next) : next.rank < phase.rank := by
  cases phase <;> simp only [resume] at h <;> split at h <;> cases h <;> simp [Phase.rank]

end ImageCheck

/-! ### All running containers -/

namespace Sweep

/-- The phases of a sweep. -/
inductive Phase where
  /-- The running containers are listed. -/
  | listing
  /-- The image of a container is checked; others are left, and some were found to be outdated. -/
  | checking (container : Summary) (check : ImageCheck.Phase) (rest : List Summary)
    (found : List String)
  deriving DecidableEq, Repr

/-- What a phase asks of the daemon. -/
def Phase.request : Phase → Request
  | .listing => .list false
  | .checking container check _ _ => check.request container.image

/-- The check of the next container whose image names a registry, or the end. -/
def advance (found : List String) :
    List Summary → Progress Phase (Except ServiceError (List String))
  | [] => .finished (.ok found)
  | container :: rest =>
    if Image.isRemote container.image then .running (.checking container .before rest found)
    else advance found rest

/-- What comes after a phase. -/
def resume (answers : Answers) : Phase → Progress Phase (Except ServiceError (List String))
  | .listing =>
    match answers (.list false) with
    | .ok records => advance [] (records.map ListingRecord.summary)
    | .error fault => .finished (.error (.ofFault fault))
  | .checking container check rest found =>
    match ImageCheck.resume container.image answers check with
    | .running check => .running (.checking container check rest found)
    | .finished (.ok true) => advance (found ++ [container.name]) rest
    | .finished _ => advance found rest

/-- How far a phase is from the end: whether the list is still to come, and the requests left. -/
def Phase.rank : Phase → Rank
  | .listing => (1, 0)
  | .checking _ check rest _ => (0, 3 * rest.length + check.rank)

/-- What comes next takes fewer than three requests for each container that is left. -/
theorem advance_rank {found : List String} {containers : List Summary} {next : Phase}
    (h : advance found containers = .running next) :
    next.rank.1 = 0 ∧ next.rank.2 < 3 * containers.length := by
  induction containers with
  | nil => cases h
  | cons container rest ih =>
    simp only [advance] at h
    split at h
    · cases h; simp [Phase.rank, ImageCheck.Phase.rank]; omega
    · have := ih h; simp only [List.length_cons]; omega

/-- Every step brings a sweep nearer to its end. -/
theorem rank_resume {answers : Answers} {phase next : Phase}
    (h : resume answers phase = .running next) : next.rank.Below phase.rank := by
  cases phase with
  | listing =>
    simp only [resume] at h
    split at h
    · exact Rank.below_of_fst (by rw [(advance_rank h).1]; exact Nat.one_pos)
    · cases h
  | checking container check rest found =>
    have fewer {n : Nat} (h : n < 3 * rest.length) :
        n < (Phase.checking container check rest found).rank.2 :=
      Nat.lt_of_lt_of_le h (Nat.le_add_right _ _)
    simp only [resume] at h
    split at h
    · cases h
      rename_i hcheck
      exact Rank.below_of_snd rfl (Nat.add_lt_add_left (ImageCheck.rank_resume hcheck) _)
    · exact Rank.below_of_snd (advance_rank h).1 (fewer (advance_rank h).2)
    · exact Rank.below_of_snd (advance_rank h).1 (fewer (advance_rank h).2)

end Sweep

end Dockmaster
