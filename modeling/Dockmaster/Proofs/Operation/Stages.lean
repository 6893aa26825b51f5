import Dockmaster.Proofs.Operation.Path
import Mathlib.Data.List.Basic
import Mathlib.Tactic.SplitIfs

/-!
# What a sweep asks for

`Stage` says what a sweep has heard in each of its phases, and a sweep is in such a stage on all its
path, whatever it is answered (`stage_of_path`). So it asks for the list of the running containers
and then only about images that name a registry and belong to a container in the list
(`Stage.asked`), it pulls an image only when it has just been told that the image is there
(`Stage.pulls`), and nothing but the list can make it fail (`Stage.failed`).
-/

namespace Dockmaster

/-- The image reference that a request is about. -/
def Request.image? : Request → Option String
  | .listImages image => some image
  | .pull image => some image
  | _ => none

open Operation

namespace Sweep

/-! ### What a sweep asks for -/

/-- Whether a request is about the image of a container in a list, and that image names a
registry. -/
def Concerns (records : List ListingRecord) (request : Request) : Prop :=
  ∃ container ∈ records.map ListingRecord.summary,
    Image.isRemote container.image = true ∧ request.image? = some container.image

/-- **What a sweep has heard in its phases.** First the list, then something about images of which
it was told; and when it pulls one, it has just heard that the image is there. -/
inductive Stage : List Exchange → Phase → Prop
  /-- Nothing was asked yet. -/
  | listing : Stage [] .listing
  /-- The list is there. -/
  | checking {records : List ListingRecord} {heard : List Exchange} {container : Summary}
      {check : ImageCheck.Phase} {rest : List Summary} {found : List String}
      (asked : ∀ exchange ∈ heard, Concerns records exchange.request)
      (listed : container ∈ records.map ListingRecord.summary)
      (remote : Image.isRemote container.image = true)
      (left : rest ⊆ records.map ListingRecord.summary)
      (seen : ∀ old, check = .pulling old → ∃ before more,
        heard = before ++ [⟨.listImages container.image, .ok (old :: more)⟩]) :
      Stage (⟨.list false, .ok records⟩ :: heard) (.checking container check rest found)

theorem advance_of_running {found : List String} {containers : List Summary} {next : Phase}
    (h : advance found containers = .running next) :
    ∃ container rest, next = .checking container .before rest found ∧ container ∈ containers ∧
      Image.isRemote container.image = true ∧ rest ⊆ containers := by
  induction containers with
  | nil => cases h
  | cons container rest ih =>
    rw [advance] at h
    split_ifs at h with hremote
    · cases h
      exact ⟨container, rest, rfl, List.mem_cons_self, hremote, List.subset_cons_self ..⟩
    · obtain ⟨other, left, rfl, hmem, hother, hleft⟩ := ih h
      exact ⟨other, left, rfl, List.mem_cons_of_mem _ hmem, hother,
        List.subset_cons_of_subset _ hleft⟩

/-- The end of a list of containers is no failure. -/
theorem advance_of_finished {found : List String} {containers : List Summary}
    {result : Except ServiceError (List String)} (h : advance found containers = .finished result) :
    result = .ok found := by
  induction containers with
  | nil =>
    cases h
    rfl
  | cons container rest ih =>
    rw [advance] at h
    split_ifs at h
    exact ih h

theorem image?_request (image : String) (phase : ImageCheck.Phase) :
    (phase.request image).image? = some image := by
  cases phase <;> rfl

/-- A check goes on to pull an image after it was told of a local one. -/
theorem told_of_pulling {image old : String} {answers : Answers} {phase : ImageCheck.Phase}
    (h : ImageCheck.resume image answers phase = .running (.pulling old)) :
    ∃ more, phase.request image = .listImages image ∧
      answers (.listImages image) = .ok (old :: more) := by
  cases phase with
  | before =>
    rw [ImageCheck.resume] at h
    split at h
    · cases h
    · rename_i id more htold
      cases h
      exact ⟨more, rfl, htold⟩
    · cases h
  | pulling id =>
    rw [ImageCheck.resume] at h
    split at h <;> cases h
  | after id =>
    rw [ImageCheck.resume] at h
    split at h <;> cases h

/-- **One step of a sweep.** -/
theorem Stage.resume {answers : Answers} {heard : List Exchange} {phase next : Phase}
    (h : Stage heard phase) (goesOn : Sweep.resume answers phase = .running next) :
    Stage (heard ++ [⟨phase.request, answers phase.request⟩]) next := by
  cases h with
  | listing =>
    rw [Sweep.resume] at goesOn
    split at goesOn
    · rename_i records hlist
      obtain ⟨container, rest, rfl, hmem, hremote, hleft⟩ := advance_of_running goesOn
      show Stage [⟨.list false, answers (.list false)⟩] _
      rw [hlist]
      refine .checking (fun _ hmem => absurd hmem List.not_mem_nil) hmem hremote hleft ?_
      rintro old ⟨⟩
    · cases goesOn
  | @checking records heard container check rest found asked listed remote left seen =>
    have hasked : ∀ exchange ∈ heard ++ [⟨check.request container.image,
        answers (check.request container.image)⟩], Concerns records exchange.request := by
      intro exchange hmem
      rcases List.mem_append.mp hmem with hmem | hmem
      · exact asked exchange hmem
      · rw [List.mem_singleton.mp hmem]
        exact ⟨container, listed, remote, image?_request ..⟩
    -- the next container is one of those that are left
    have hadvance {found' : List String} (h : advance found' rest = .running next) :
        Stage (⟨.list false, .ok records⟩ :: (heard ++ [⟨check.request container.image,
          answers (check.request container.image)⟩])) next := by
      obtain ⟨other, rest', rfl, hmem, hremote, hleft⟩ := advance_of_running h
      refine .checking hasked (left hmem) hremote (List.Subset.trans hleft left) ?_
      rintro old ⟨⟩
    rw [Sweep.resume] at goesOn
    split at goesOn
    · rename_i check' hcheck
      cases goesOn
      refine .checking hasked listed remote left ?_
      rintro old rfl
      obtain ⟨more, hrequest, htold⟩ := told_of_pulling hcheck
      refine ⟨heard, more, ?_⟩
      show heard ++ [⟨check.request container.image, answers (check.request container.image)⟩] = _
      rw [hrequest, htold]
    · exact hadvance goesOn
    · exact hadvance goesOn

/-- Only the list can make a sweep fail. -/
theorem Stage.failed {answers : Answers} {heard : List Exchange} {phase : Phase} {e : ServiceError}
    (h : Stage heard phase) (fails : Sweep.resume answers phase = .finished (.error e)) :
    heard = [] ∧ ∃ fault, answers (.list false) = .error fault ∧ e = .ofFault fault := by
  cases h with
  | listing =>
    rw [Sweep.resume] at fails
    split at fails
    · cases advance_of_finished fails
    · rename_i fault hlist
      cases fails
      exact ⟨rfl, fault, hlist, rfl⟩
  | checking =>
    rw [Sweep.resume] at fails
    split at fails
    · cases fails
    · cases advance_of_finished fails
    · cases advance_of_finished fails

/-- **What a sweep has heard on its path**, whatever the answers are. -/
theorem stage_of_path {guard : Guard} {heard : List Exchange} {op : Operation}
    (path : Path guard .checkForUpdates heard op) :
    ∃ phase, op = .sweep phase ∧ Stage heard phase := by
  induction path with
  | first => exact ⟨.listing, rfl, .listing⟩
  | @heard heard op next request answers path asks goesOn ih =>
    obtain ⟨phase, rfl, hstage⟩ := ih
    obtain rfl := Option.some.inj asks
    simp only [Operation.resume, Progress.map] at goesOn
    split at goesOn
    · rename_i phase' hphase
      cases goesOn
      exact ⟨phase', rfl, hstage.resume hphase⟩
    · cases goesOn
  | locked answers path waits goesOn ih =>
    obtain ⟨phase, rfl, -⟩ := ih
    cases waits

/-- Every request of a sweep is for the list or about an image of which the sweep was told. -/
theorem Stage.asked {heard : List Exchange} {phase : Phase} (h : Stage heard phase) :
    ∀ request ∈ heard.map Exchange.request ++ [phase.request], request = .list false ∨
      ∃ records more, heard = ⟨.list false, .ok records⟩ :: more ∧ Concerns records request := by
  intro request hmem
  cases h with
  | listing => exact .inl (List.mem_singleton.mp hmem)
  | @checking records heard container check rest found asked listed remote =>
    rw [List.map_cons, List.cons_append, List.mem_cons, List.mem_append, List.mem_map] at hmem
    rcases hmem with hlist | ⟨exchange, hexchange, rfl⟩ | hlast
    · exact .inl hlist
    · exact .inr ⟨records, heard, rfl, asked exchange hexchange⟩
    · rw [List.mem_singleton.mp hlast]
      exact .inr ⟨records, heard, rfl, container, listed, remote, image?_request ..⟩

/-- A sweep that pulls an image has just been told that the image is there. -/
theorem Stage.pulls {heard : List Exchange} {phase : Phase} (h : Stage heard phase) {image : String}
    (hpull : phase.request = .pull image) : ∃ before id more,
      heard = before ++ [⟨.listImages image, .ok (id :: more)⟩] := by
  cases h with
  | listing => cases hpull
  | @checking records heard container check rest found asked listed remote left seen =>
    cases check with
    | before => cases hpull
    | pulling old =>
      cases hpull
      obtain ⟨before, more, rfl⟩ := seen old rfl
      exact ⟨⟨.list false, .ok records⟩ :: before, old, more, rfl⟩
    | after old => cases hpull

end Sweep

end Dockmaster
