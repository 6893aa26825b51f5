import Dockmaster.Proofs.Error
import Dockmaster.Proofs.Operation.Path

/-!
# How an operation on one container ends

The counterpart of `Lifecycle.Leads`. `Lifecycle.Ends` lists the ways in which a phase is the last
one, each with the answer that it takes and the result that it gives; `ends_of_resume` shows that
there are no others. An answer lets an update stop its container, or ends it, according to
`HaltTolerated`; every other answer of an update decides by whether it is a success.

An update reports the step that failed together with the failure itself, sorted once
(`ServiceError.ofFault`) and never wrapped twice (`source?_ofFault`).
-/

namespace Dockmaster

namespace Lifecycle

/-- The result of an operation that one last answer decides. -/
def lastWord (answer : Except DaemonFault Unit) : Result :=
  match answer with
  | .ok _ => .ok none
  | .error fault => .error (.ofFault fault)

theorem concluded_eq (answer : Except DaemonFault Unit) :
    concluded answer = .finished (lastWord answer) := by
  cases answer <;> rfl

/-- **How a phase ends an operation**, and the answer after which it does. -/
inductive Ends (guard : Guard) (reference : String) (answers : Answers) : Phase → Result → Prop
  /-- The first inspection fails. -/
  | unknown {fault : DaemonFault} (failed : answers (.inspect reference) = .error fault) :
      Ends guard reference answers .resolving (.error (.ofFault fault))
  /-- The second inspection fails. -/
  | vanished {fullId : String} {fault : DaemonFault}
      (failed : answers (.inspect fullId) = .error fault) :
      Ends guard reference answers (.rechecking fullId) (.error (.ofFault fault))
  /-- The second inspection finds the container protected. -/
  | refused {fullId : String} {info : InspectRecord} (told : answers (.inspect fullId) = .ok info)
      (veto : vetoed guard reference fullId info = true) :
      Ends guard reference answers (.rechecking fullId) (.error (.blacklisted reference))
  /-- The container is stopped, or cannot be. -/
  | stopped (fullId : String) :
      Ends guard reference answers (.stopping fullId)
        (lastWord (answers (.stop fullId stopGrace)))
  /-- The container is restarted, or cannot be. -/
  | restarted (fullId : String) :
      Ends guard reference answers (.restarting fullId)
        (lastWord (answers (.restart fullId stopGrace)))
  /-- The image cannot be pulled. -/
  | unpulled {target : Target} {fault : DaemonFault}
      (failed : answers (.pull target.image) = .error fault) :
      Ends guard reference answers (.pulling target)
        (.error (.updateFailed target.name .pull (.ofFault fault)))
  /-- The container cannot be stopped. -/
  | unhalted {target : Target} {fault : DaemonFault}
      (failed : answers (.stop target.fullId updateStopGrace) = .error fault)
      (grave : ¬ HaltTolerated (.error fault)) :
      Ends guard reference answers (.halting target)
        (.error (.updateFailed target.name .stop (.ofFault fault)))
  /-- The container cannot be removed. -/
  | unremoved {target : Target} {fault : DaemonFault}
      (failed : answers (.remove target.fullId true) = .error fault) :
      Ends guard reference answers (.removing target)
        (.error (.updateFailed target.name .remove (.ofFault fault)))
  /-- The replacement cannot be created. -/
  | uncreated {target : Target} {fault : DaemonFault}
      (failed : answers (.create target.name (target.snapshot.createConfig target.image)) =
        .error fault) :
      Ends guard reference answers (.creating target)
        (.error (.updateFailed target.name .create (.ofFault fault)))
  /-- The replacement cannot be started. -/
  | unstarted {target : Target} {newId : String} {fault : DaemonFault}
      (failed : answers (.start newId) = .error fault) :
      Ends guard reference answers (.starting target newId)
        (.error (.updateFailed target.name .start (.ofFault fault)))
  /-- The replacement is started. -/
  | started {target : Target} {newId : String} (started : answers (.start newId) = .ok ()) :
      Ends guard reference answers (.starting target newId) (.ok (some newId))

/-- **A phase ends an operation as `Ends` says.** -/
theorem ends_of_resume {guard : Guard} {action : Action} {reference : String} {answers : Answers}
    {phase : Phase} {result : Result}
    (h : resume guard action reference answers phase = .finished result) :
    Ends guard reference answers phase result := by
  cases phase with
  | resolving =>
    simp only [resume] at h
    split at h
    · cases h
    · rename_i fault hfailed
      cases h
      exact .unknown hfailed
  | queueing fullId => cases h
  | rechecking fullId =>
    simp only [resume] at h
    split at h
    · rename_i info htold
      split at h
      · rename_i hveto
        cases h
        exact .refused htold hveto
      · cases h
    · rename_i fault hfailed
      cases h
      exact .vanished hfailed
  | stopping fullId =>
    rw [resume, concluded_eq] at h
    cases h
    exact .stopped fullId
  | restarting fullId =>
    rw [resume, concluded_eq] at h
    cases h
    exact .restarted fullId
  | pulling target =>
    simp only [resume, stageFailed] at h
    split at h
    · cases h
    · rename_i fault hfailed
      cases h
      exact .unpulled hfailed
  | halting target =>
    simp only [resume, stageFailed] at h
    split at h
    · cases h
    · rename_i fault hfailed
      split at h
      · cases h
      · rename_i hgrave
        cases h
        refine .unhalted hfailed ?_
        rintro ⟨message, hmessage⟩
        exact hgrave message hmessage
  | removing target =>
    simp only [resume, stageFailed] at h
    split at h
    · cases h
    · rename_i fault hfailed
      cases h
      exact .unremoved hfailed
  | creating target =>
    simp only [resume, stageFailed] at h
    split at h
    · cases h
    · rename_i fault hfailed
      cases h
      exact .uncreated hfailed
  | connecting target newId network left => cases h
  | starting target newId =>
    simp only [resume, stageFailed] at h
    split at h
    · rename_i hstarted
      cases h
      exact .started hstarted
    · rename_i fault hfailed
      cases h
      exact .unstarted hfailed

end Lifecycle

end Dockmaster
