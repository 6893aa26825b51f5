import Dockmaster.Proofs.Operation.Isolation

/-!
# An available update is announced once

A check for a newer image looks at the local images of a reference, pulls the reference and looks
again. On a daemon that may fail, but on which nothing else than a pull that succeeds changes the
local images (`PullsOnly`), it answers yes exactly if there is a local image, none of its three
requests fails, the registry has an image, and the two are not the same (`newer_iff`). So a check
that does not fail leaves nothing to announce: either there is no local image, or the local images
are those of the registry. This is what `IsSettled` says; no request whatever unsettles a reference,
and as long as it is settled no check answers yes (`announced_once`).
-/

namespace Dockmaster

open Operation Operation.Server

/-! ### Daemons on which only pulls change images -/

section Daemon

variable {σ : Type}

/-- **A daemon that may fail**, with the local images of a reference and those of the registry, if
it has the reference. -/
structure PullsOnly (server : Server σ) (image : String) (localIds : σ → List String)
    (registryIds? : σ → Option (List String)) : Prop where
  /-- If the local images are told, they are told as they are. -/
  told : ∀ {s ids}, (server s (.listImages image)).2 = .ok ids → localIds s = ids
  /-- A pull that succeeds makes the local images those that the registry has, if it has any. -/
  pulled : ∀ {s}, (server s (.pull image)).2 = .ok () →
    localIds (server s (.pull image)).1 = (registryIds? s).getD (localIds s)
  /-- A pull that fails leaves the local images as they are. -/
  failed : ∀ {s fault}, (server s (.pull image)).2 = .error fault →
    localIds (server s (.pull image)).1 = localIds s
  /-- Other requests leave the local images as they are. -/
  kept : ∀ {s request}, request ≠ .pull image → localIds (server s request).1 = localIds s
  /-- The registry stays as it is. -/
  registryIds?_eq : ∀ s request, registryIds? (server s request).1 = registryIds? s

variable {guard : Guard} {server : Server σ} {image : String} {localIds : σ → List String}
  {registryIds? : σ → Option (List String)}

/-! ### One check -/

variable (server image) in
/-- The daemon after the local images were looked at. -/
def looked (s : σ) : σ := (server s (.listImages image)).1

variable (server image) in
/-- The daemon after the reference was pulled, too. -/
def refreshed (s : σ) : σ := (server (looked server image s) (.pull image)).1

/-- **What can become of a check.** -/
inductive Checked (server : Server σ) (image : String) (s : σ) : σ × Outcome → Prop
  /-- One of its requests fails. -/
  | failed (s' : σ) (e : ServiceError) : Checked server image s (s', .error e)
  /-- There is no local image. -/
  | absent (before : (server s (.listImages image)).2 = .ok []) :
      Checked server image s (looked server image s, .ok (.flag false))
  /-- The first local image from before the pull is compared with the first from after it. -/
  | compared {old : String} {more ids : List String}
      (before : (server s (.listImages image)).2 = .ok (old :: more))
      (pulled : (server (looked server image s) (.pull image)).2 = .ok ())
      (after : (server (refreshed server image s) (.listImages image)).2 = .ok ids) :
      Checked server image s
        (looked server image (refreshed server image s), .ok (.flag (ids.head?.any (· ≠ old))))

/-- A check of which no request fails compares the images. -/
theorem run_compared {s : σ} {old : String} {more ids : List String}
    (before : (server s (.listImages image)).2 = .ok (old :: more))
    (pulled : (server (looked server image s) (.pull image)).2 = .ok ())
    (after : (server (refreshed server image s) (.listImages image)).2 = .ok ids) :
    Operation.run guard server s (.checkForUpdate image) =
      (looked server image (refreshed server image s), .ok (.flag (ids.head?.any (· ≠ old)))) := by
  have hbefore : ImageCheck.resume image (server.answers s) .before = .running (.pulling old) := by
    rw [ImageCheck.resume, answers, before]
  have hpulling : ImageCheck.resume image (server.answers (looked server image s)) (.pulling old) =
      .running (.after old) := by
    rw [ImageCheck.resume, answers, pulled]
  have hafter : ImageCheck.resume image (server.answers (refreshed server image s)) (.after old) =
      .finished (.ok (ids.head?.any (· ≠ old))) := by
    rw [ImageCheck.resume, answers, after]
    cases ids <;> simp
  rw [checkForUpdate, run_check, hbefore]
  refine (run_check (looked server image s) (.pulling old)).trans ?_
  rw [hpulling]
  refine (run_check (refreshed server image s) (.after old)).trans ?_
  rw [hafter]
  rfl

/-- **Every check** ends in one of these ways. -/
theorem checked (guard : Guard) (s : σ) :
    Checked server image s (Operation.run guard server s (.checkForUpdate image)) := by
  cases hbefore : (server s (.listImages image)).2 with
  | error fault =>
    rw [checkForUpdate, run_check, ImageCheck.resume, answers, hbefore]
    exact .failed _ _
  | ok ids =>
    cases ids with
    | nil =>
      rw [checkForUpdate, run_check, ImageCheck.resume, answers, hbefore]
      exact .absent hbefore
    | cons old more =>
      have hfirst : Operation.run guard server s (.checkForUpdate image) =
          Operation.run guard server (looked server image s) (.check image (.pulling old)) := by
        rw [checkForUpdate, run_check, ImageCheck.resume, answers, hbefore]
        rfl
      cases hpulled : (server (looked server image s) (.pull image)).2 with
      | error fault =>
        rw [hfirst, run_check, ImageCheck.resume, answers, hpulled]
        exact .failed _ _
      | ok done =>
        cases hafter : (server (refreshed server image s) (.listImages image)).2 with
        | error fault =>
          have hsecond :
              Operation.run guard server (looked server image s) (.check image (.pulling old)) =
              Operation.run guard server (refreshed server image s)
                (.check image (.after old)) := by
            rw [run_check, ImageCheck.resume, answers, hpulled]
            rfl
          rw [hfirst, hsecond, run_check, ImageCheck.resume, answers, hafter]
          exact .failed _ _
        | ok ids =>
          rw [run_compared hbefore hpulled hafter]
          exact .compared hbefore hpulled hafter

/-! ### Settled references -/

namespace PullsOnly

variable (h : PullsOnly server image localIds registryIds?)
include h

/-- What a check of which no request fails finds after its pull. -/
theorem localIds_refreshed {s : σ}
    (pulled : (server (looked server image s) (.pull image)).2 = .ok ()) :
    localIds (refreshed server image s) = (registryIds? s).getD (localIds s) := by
  have hlooked : localIds (looked server image s) = localIds s := h.kept nofun
  have hregistry : registryIds? (looked server image s) = registryIds? s := h.registryIds?_eq ..
  rw [refreshed, h.pulled pulled, hlooked, hregistry]

/-- **When a check answers yes.** -/
theorem newer_iff (guard : Guard) (s : σ) :
    (Operation.run guard server s (.checkForUpdate image)).2 = .ok (.flag true) ↔
      (∃ old more new rest, localIds s = old :: more ∧ registryIds? s = some (new :: rest) ∧
        new ≠ old) ∧
      (∃ ids, (server s (.listImages image)).2 = .ok ids) ∧
      (server (looked server image s) (.pull image)).2 = .ok () ∧
      ∃ ids, (server (refreshed server image s) (.listImages image)).2 = .ok ids := by
  constructor
  · intro hnewer
    generalize hrun : Operation.run guard server s (.checkForUpdate image) = result at hnewer
    have hchecked := @checked σ server image guard s
    rw [hrun] at hchecked
    cases hchecked with
    | failed s' e => cases hnewer
    | absent before => cases hnewer
    | @compared old more ids before pulled after =>
      refine ⟨?_, ⟨_, before⟩, pulled, ids, after⟩
      have hlocal := h.told before
      have hids : (registryIds? s).getD (old :: more) = ids := by
        rw [← hlocal, ← h.localIds_refreshed pulled]
        exact h.told after
      have hany : ids.head?.any (· ≠ old) = true := by
        injection hnewer with hvalue
        injection hvalue
      cases hregistry : registryIds? s with
      | none =>
        -- nothing came in, so the first image is the same
        rw [hregistry, Option.getD_none] at hids
        rw [← hids] at hany
        simp at hany
      | some new =>
        rw [hregistry, Option.getD_some] at hids
        subst hids
        cases new with
        | nil => simp at hany
        | cons id rest => exact ⟨old, more, id, rest, hlocal, rfl, by simpa using hany⟩
  · rintro ⟨⟨old, more, new, rest, hlocal, hregistry, hne⟩, ⟨ids, before⟩, pulled, ids', after⟩
    obtain rfl : old :: more = ids := hlocal.symm.trans (h.told before)
    have hids : new :: rest = ids' := by
      have hafter := h.localIds_refreshed pulled
      rw [hregistry, Option.getD_some] at hafter
      exact hafter.symm.trans (h.told after)
    subst hids
    rw [run_compared before pulled after]
    simp [hne]

end PullsOnly

/-- **Whether there is nothing to announce**: there is no local image, or the local images are those
that the registry has. -/
def IsSettled (localIds : σ → List String) (registryIds? : σ → Option (List String)) (s : σ) :
    Prop :=
  localIds s = [] ∨ ∀ ids, registryIds? s = some ids → localIds s = ids

namespace PullsOnly

variable (h : PullsOnly server image localIds registryIds?)
include h

/-- **Nothing unsettles a reference.** -/
theorem isSettled_request {s : σ} (settled : IsSettled localIds registryIds? s)
    (request : Request) : IsSettled localIds registryIds? (server s request).1 := by
  have hsame (hlocal : localIds (server s request).1 = localIds s) :
      IsSettled localIds registryIds? (server s request).1 := by
    unfold IsSettled
    rw [hlocal, h.registryIds?_eq]
    exact settled
  by_cases hpull : request = .pull image
  · subst hpull
    cases hanswer : (server s (.pull image)).2 with
    | error fault => exact hsame (h.failed hanswer)
    | ok done =>
      refine .inr fun ids hregistry => ?_
      rw [h.registryIds?_eq] at hregistry
      rw [h.pulled hanswer, hregistry, Option.getD_some]
  · exact hsame (h.kept hpull)

theorem isSettled_afterAll {s : σ} (settled : IsSettled localIds registryIds? s)
    (requests : List Request) : IsSettled localIds registryIds? (server.afterAll s requests) := by
  induction requests generalizing s with
  | nil => exact settled
  | cons request rest ih => exact ih (h.isSettled_request settled request)

/-- A check that does not fail leaves nothing to announce. -/
theorem isSettled_of_ok {s : σ} {newer : Bool}
    (succeeds : (Operation.run guard server s (.checkForUpdate image)).2 = .ok (.flag newer)) :
    IsSettled localIds registryIds? (Operation.run guard server s (.checkForUpdate image)).1 := by
  generalize hrun : Operation.run guard server s (.checkForUpdate image) = result at succeeds ⊢
  have hchecked := @checked σ server image guard s
  rw [hrun] at hchecked
  cases hchecked with
  | failed s' e => cases succeeds
  | absent before => exact h.isSettled_request (.inl (h.told before)) _
  | compared before pulled after =>
    refine h.isSettled_request (.inr fun ids hregistry => ?_) _
    rw [refreshed, h.registryIds?_eq, looked, h.registryIds?_eq] at hregistry
    rw [h.localIds_refreshed pulled, hregistry, Option.getD_some]

/-- There is nothing to announce about a settled reference. -/
theorem not_newer_of_isSettled (guard : Guard) {s : σ}
    (settled : IsSettled localIds registryIds? s) :
    (Operation.run guard server s (.checkForUpdate image)).2 ≠ .ok (.flag true) := by
  intro hnewer
  obtain ⟨⟨old, more, new, rest, hlocal, hregistry, hne⟩, -⟩ := (h.newer_iff guard s).mp hnewer
  rcases settled with hnone | hsame
  · cases hlocal.symm.trans hnone
  · injection hlocal.symm.trans (hsame _ hregistry) with hold
    exact hne hold.symm

end PullsOnly

/-! ### One check after another -/

/-- The outcomes of one check after another, before each of which others make some requests. -/
def checkAgain (guard : Guard) (server : Server σ) (image : String) :
    σ → List (List Request) → List Outcome
  | _, [] => []
  | s, between :: rest =>
    let checked :=
      Operation.run guard server (server.afterAll s between) (.checkForUpdate image)
    checked.2 :: checkAgain guard server image checked.1 rest

/-- As long as a reference is settled, no check answers yes. -/
theorem PullsOnly.checkAgain_ne (h : PullsOnly server image localIds registryIds?) (guard : Guard)
    {s : σ} (settled : IsSettled localIds registryIds? s) (rounds : List (List Request)) :
    ∀ outcome ∈ checkAgain guard server image s rounds, outcome ≠ .ok (.flag true) := by
  induction rounds generalizing s with
  | nil => exact fun _ hmem => absurd hmem List.not_mem_nil
  | cons between rest ih =>
    have hbetween := h.isSettled_afterAll settled between
    intro outcome hmem
    rw [checkAgain, List.mem_cons] at hmem
    rcases hmem with rfl | hmem
    · exact h.not_newer_of_isSettled guard hbetween
    · obtain ⟨requests, -, hstate⟩ := exists_requests_of_check guard server
        (server.afterAll s between) image
      rw [hstate] at hmem
      exact ih (h.isSettled_afterAll hbetween requests) outcome hmem

/-- **An available update is announced once.** A check answers yes exactly if there is a local
image, its three requests succeed, the registry has an image, and the first images are not the same.
After a check that did not fail, no further check answers yes, however many there are and whatever
is asked of the daemon between them. -/
theorem announced_once (h : PullsOnly server image localIds registryIds?) (guard : Guard) (s : σ) :
    ((Operation.run guard server s (.checkForUpdate image)).2 = .ok (.flag true) ↔
      (∃ old more new rest, localIds s = old :: more ∧ registryIds? s = some (new :: rest) ∧
        new ≠ old) ∧
      (∃ ids, (server s (.listImages image)).2 = .ok ids) ∧
      (server (looked server image s) (.pull image)).2 = .ok () ∧
      ∃ ids, (server (refreshed server image s) (.listImages image)).2 = .ok ids) ∧
    ∀ newer, (Operation.run guard server s (.checkForUpdate image)).2 = .ok (.flag newer) →
      ∀ rounds, ∀ outcome ∈ checkAgain guard server image
        (Operation.run guard server s (.checkForUpdate image)).1 rounds,
        outcome ≠ .ok (.flag true) :=
  ⟨h.newer_iff guard s, fun _ succeeds => h.checkAgain_ne guard (h.isSettled_of_ok succeeds)⟩

end Daemon

/-! ### The daemon in memory -/

namespace ScriptedDaemon

/-- **The daemon in memory**, with all failures that are planned for it, changes the images of a
reference only when it is pulled. -/
theorem pullsOnly_serve (image : String) :
    PullsOnly serve image (localIds · image) (registryIds? · image) where
  told {daemon ids} htold := by
    unfold serve at htold
    split at htold
    · cases htold
    · cases htold
      rfl
  pulled {daemon} hpulled := by
    unfold serve at hpulled ⊢
    split at hpulled
    · cases hpulled
    · rename_i failures _
      exact (Sweep.ImageStore.localIds_pull imageStore_execute { daemon with failures } image
        image).trans (if_pos rfl)
  failed {daemon fault} hfailed := by
    unfold serve at hfailed ⊢
    split at hfailed
    · rfl
    · cases hfailed
  kept {daemon request} hne := by
    unfold serve
    split
    · rfl
    · rename_i failures _
      exact localIds_execute_of_ne { daemon with failures } hne
  registryIds?_eq daemon request := by
    unfold serve
    split
    · rfl
    · rename_i failures _
      exact congrFun (Sweep.ImageStore.registryIds?_eq imageStore_execute { daemon with failures }
        request) image

/-- A daemon on which two images are outdated, and the second pull fails. -/
def flaky : ScriptedDaemon := { bothOutdated with failures := [⟨"pull", .timeout, 1, some 1⟩] }

/-- The first check finds the newer image of `api`; none of the later ones does, of which the first
fails. -/
theorem announced_once_flaky :
    (Operation.run ⟨[]⟩ serve flaky (.checkForUpdate "ghcr.io/org/api:1")).2 = .ok (.flag true) ∧
    ∀ outcome ∈ checkAgain ⟨[]⟩ serve "ghcr.io/org/api:1"
      (Operation.run ⟨[]⟩ serve flaky (.checkForUpdate "ghcr.io/org/api:1")).1
        [[], [.restart "c1" 10], []], outcome ≠ .ok (.flag true) := by
  obtain ⟨hnewer, honce⟩ := announced_once (pullsOnly_serve "ghcr.io/org/api:1") ⟨[]⟩ flaky
  have hfirst := hnewer.mpr
    ⟨⟨"sha256:a1", [], "sha256:a2", [], rfl, rfl, by decide⟩, ⟨_, rfl⟩, rfl, _, rfl⟩
  exact ⟨hfirst, honce true hfirst _⟩

end ScriptedDaemon

end Dockmaster
