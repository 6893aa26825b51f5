import Dockmaster.Engine
import Dockmaster.Proofs.Operation.Path
import Mathlib.Tactic.SplitIfs

/-!
# What one event can do to the engine

`Engine.Turn` lists everything that an event can come to, and `turn_step` says that nothing else
happens. An event concerns the operation that it names and no other (`Turn.frame`): the others stay
in their phases and neither ask for anything nor return, though one of them may be handed a lock.
-/

namespace Dockmaster

namespace Notice

/-- What an operation asks for in a notice. -/
def asked? (n : Nat) : Notice → Option Request
  | .issued op request => if op = n then some request else none
  | _ => none

/-- What an operation returns in a notice. -/
def returned? (n : Nat) : Notice → Option Outcome
  | .returned op outcome => if op = n then some outcome else none
  | _ => none

end Notice

namespace Engine

/-- The operation that an event names. -/
def Event.number : Event → Nat
  | .begin n _ => n
  | .answer n _ => n
  | .look n => n
  | .cancel n => n

/-! ### The operations under way -/

section Live

variable (engine : Engine) (n : Nat) (op : Operation)

@[simp] theorem find?_put_self : (engine.put n op).find? n = some op := by
  simp [find?, put]

theorem find?_put_of_ne {k : Nat} (h : k ≠ n) : (engine.put n op).find? k = engine.find? k := by
  unfold find? put
  rw [List.find?_cons_of_neg (by simpa using Ne.symm h), List.find?_filter]
  congr 2
  funext entry
  by_cases hentry : entry.1 = k
  · simp [hentry, h]
  · simp [hentry]

@[simp] theorem find?_discard_self : (engine.discard n).find? n = none := by
  simp [find?, discard]

theorem find?_discard_of_ne {k : Nat} (h : k ≠ n) :
    (engine.discard n).find? k = engine.find? k := by
  unfold find? discard
  rw [List.find?_filter]
  congr 2
  funext entry
  by_cases hentry : entry.1 = k
  · simp [hentry, h]
  · simp [hentry]

/-- The locks after an operation gives up the lock that it holds or waits for. -/
def locksWithout : LockTable Nat :=
  if op.heldLock?.isSome then engine.locks.release n
  else if op.awaitedLock?.isSome then engine.locks.abandon n
  else engine.locks

theorem letGo_fst : (engine.letGo n op).1 = { engine with locks := engine.locksWithout n op } := by
  unfold letGo locksWithout
  cases op.heldLock? with
  | some id => rfl
  | none =>
    cases op.awaitedLock? with
    | some id => rfl
    | none => rfl

/-- Giving up a lock makes no operation ask for anything or return. -/
theorem mem_letGo_snd {notice : Notice} (h : notice ∈ (engine.letGo n op).2) :
    ∃ k, notice = .handed k := by
  have handed {old new : LockTable Nat} {id : String} (h : notice ∈ handedOn old new id) :
      ∃ k, notice = .handed k := by
    unfold handedOn at h
    split at h
    · split at h
      · cases h
      · exact ⟨_, List.mem_singleton.mp h⟩
    · cases h
  unfold letGo at h
  split at h
  · exact handed h
  · exact handed h
  · cases h

end Live

/-! ### Turns -/

/-- Whether an event finds nothing to do: an answer that nobody waits for, a look of one who does
not wait for a lock or does not have it yet, a cancellation of what is over. -/
def Idle (engine : Engine) : Event → Prop
  | .begin _ _ => False
  | .answer n _ => (engine.find? n).bind (·.request?) = none
  | .look n => ¬ (∃ op, engine.find? n = some op ∧ op.awaitedLock?.isSome) ∨
      engine.locks.isOwner n = false
  | .cancel n => engine.find? n = none

/-- **What an event can come to**: the engine afterwards and the notices. -/
inductive Turn (engine : Engine) : Event → Engine → List Notice → Prop
  /-- An operation begins. -/
  | begun (n : Nat) (op : Operation) :
      Turn engine (.begin n op) (engine.put n op) (issue n op)
  /-- There is nothing to do. -/
  | idle {event : Event} (h : engine.Idle event) : Turn engine event engine []
  /-- An operation hears an answer and goes on, without waiting for a lock. -/
  | heard {n : Nat} {op next : Operation} {request : Request} (answers : Answers)
      (live : engine.find? n = some op) (asks : op.request? = some request)
      (goesOn : op.resume engine.guard answers = .running next)
      (free : next.awaitedLock? = none) :
      Turn engine (.answer n answers) (engine.put n next) (issue n next)
  /-- An operation hears an answer and has to wait for a lock. -/
  | queued {n : Nat} {op next : Operation} {request : Request} {id : String} (answers : Answers)
      (live : engine.find? n = some op) (asks : op.request? = some request)
      (goesOn : op.resume engine.guard answers = .running next)
      (waits : next.awaitedLock? = some id) (taken : (engine.locks.acquire id n).2 = false) :
      Turn engine (.answer n answers)
        ({ engine with locks := (engine.locks.acquire id n).1 }.put n next) [.queued n id]
  /-- An operation hears an answer and finds the lock free that it needs. -/
  | entered {n : Nat} {op next inside : Operation} {request : Request} {id : String}
      (answers : Answers) (live : engine.find? n = some op) (asks : op.request? = some request)
      (goesOn : op.resume engine.guard answers = .running next)
      (waits : next.awaitedLock? = some id) (free : (engine.locks.acquire id n).2 = true)
      (gets : next.resume engine.guard answers = .running inside) :
      Turn engine (.answer n answers)
        ({ engine with locks := (engine.locks.acquire id n).1 }.put n inside) (issue n inside)
  /-- An operation that waits for a lock finds that it has it. -/
  | looked {n : Nat} {op inside : Operation} {id : String}
      (live : engine.find? n = some op) (waits : op.awaitedLock? = some id)
      (owns : engine.locks.isOwner n = true)
      (gets : op.resume engine.guard noAnswers = .running inside) :
      Turn engine (.look n) (engine.put n inside) (issue n inside)
  /-- An operation hears an answer and returns. -/
  | returned {n : Nat} {op : Operation} {request : Request} {outcome : Outcome} (answers : Answers)
      (live : engine.find? n = some op) (asks : op.request? = some request)
      (ends : op.resume engine.guard answers = .finished outcome) :
      Turn engine (.answer n answers)
        ({ engine with locks := engine.locksWithout n op }.discard n)
        (.returned n outcome :: (engine.letGo n op).2)
  /-- An operation is cancelled. -/
  | cancelled {n : Nat} {op : Operation} (live : engine.find? n = some op) :
      Turn engine (.cancel n) ({ engine with locks := engine.locksWithout n op }.discard n)
        (engine.letGo n op).2

/-- An operation that waits for a lock asks for something as soon as it has it. -/
theorem inside_of_awaitedLock? {op : Operation} {id : String} (h : op.awaitedLock? = some id)
    (guard : Guard) (answers : Answers) :
    ∃ inside, op.resume guard answers = .running inside ∧ inside.awaitedLock? = none := by
  obtain ⟨action, reference, rfl⟩ := Operation.eq_of_awaitedLock? h
  exact ⟨_, rfl, rfl⟩

theorem turn_goOn {engine : Engine} {n : Nat} {op : Operation} {request : Request}
    (answers : Answers) (live : engine.find? n = some op) (asks : op.request? = some request) :
    Turn engine (.answer n answers) (engine.goOn n op answers).1 (engine.goOn n op answers).2 := by
  cases hresume : op.resume engine.guard answers with
  | finished outcome =>
    have hgoOn : engine.goOn n op answers =
        ((engine.letGo n op).1.discard n, .returned n outcome :: (engine.letGo n op).2) := by
      unfold goOn
      rw [hresume]
    rw [hgoOn, letGo_fst]
    exact .returned answers live asks hresume
  | running next =>
    have hgoOn : engine.goOn n op answers = engine.enter n next answers := by
      unfold goOn
      rw [hresume]
    rw [hgoOn]
    unfold enter
    cases hwaits : next.awaitedLock? with
    | none => exact .heard answers live asks hresume hwaits
    | some id =>
      obtain ⟨inside, hgets, -⟩ := inside_of_awaitedLock? hwaits engine.guard answers
      dsimp only
      -- the lock is free or not, and either turn is stated of the table that `acquire` leaves
      have hqueued := Turn.queued answers live asks hresume hwaits
      have hentered := fun hfree => Turn.entered answers live asks hresume hwaits hfree hgets
      revert hqueued hentered
      rcases engine.locks.acquire id n with ⟨locks, _ | _⟩
      · intro hqueued _
        exact hqueued rfl
      · intro _ hentered
        dsimp only
        rw [hgets]
        exact hentered rfl

theorem step_of_idle {engine : Engine} {event : Event} (h : engine.Idle event) :
    engine.step event = (engine, []) := by
  unfold step
  cases event with
  | begin n op => exact h.elim
  | answer n answers =>
    dsimp only
    cases hlive : engine.find? n with
    | none => rfl
    | some op =>
      have hasks : op.request? = none := by simpa [Idle, hlive] using h
      dsimp only
      rw [hasks]
      rfl
  | look n =>
    dsimp only
    cases hlive : engine.find? n with
    | none => rfl
    | some op =>
      dsimp only
      cases hwaits : op.awaitedLock? with
      | none => rfl
      | some id =>
        have howns : engine.locks.isOwner n = false := by simpa [Idle, hlive, hwaits] using h
        rw [howns]
        rfl
  | cancel n =>
    have hlive : engine.find? n = none := h
    dsimp only
    rw [hlive]

/-- **Nothing else happens.** -/
theorem turn_step (engine : Engine) (event : Event) :
    Turn engine event (engine.step event).1 (engine.step event).2 := by
  cases event with
  | begin n op => exact .begun n op
  | answer n answers =>
    unfold step
    dsimp only
    cases hlive : engine.find? n with
    | none => exact .idle (by simp [Idle, hlive])
    | some op =>
      dsimp only
      cases hasks : op.request? with
      | none => exact .idle (by simp [Idle, hlive, hasks])
      | some request => exact turn_goOn answers hlive hasks
  | look n =>
    unfold step
    dsimp only
    cases hlive : engine.find? n with
    | none => exact .idle (by simp [Idle, hlive])
    | some op =>
      dsimp only
      cases hwaits : op.awaitedLock? with
      | none => exact .idle (by simp [Idle, hlive, hwaits])
      | some id =>
        dsimp only
        split_ifs with howns
        · -- whoever gets the lock waits for no other, so it enters its phase at once
          obtain ⟨inside, hgets, hfree⟩ := inside_of_awaitedLock? hwaits engine.guard noAnswers
          have hgoOn : engine.goOn n op noAnswers = (engine.put n inside, issue n inside) := by
            unfold goOn enter
            rw [hgets]
            dsimp only
            rw [hfree]
          rw [hgoOn]
          exact .looked hlive hwaits howns hgets
        · exact .idle (.inr (by simpa using howns))
  | cancel n =>
    unfold step
    dsimp only
    cases hlive : engine.find? n with
    | none => exact .idle hlive
    | some op =>
      dsimp only
      rw [letGo_fst]
      exact .cancelled hlive

/-! ### What a turn leaves as it is -/

theorem asked?_issue_self (n : Nat) (op : Operation) :
    (issue n op).filterMap (Notice.asked? n) = op.request?.toList := by
  unfold issue
  cases op.request? with
  | none => rfl
  | some request => simp [Notice.asked?]

theorem asked?_issue_of_ne {n k : Nat} (h : k ≠ n) (op : Operation) :
    (issue k op).filterMap (Notice.asked? n) = [] := by
  unfold issue
  cases op.request? with
  | none => rfl
  | some request => simp [Notice.asked?, h]

theorem returned?_issue (n k : Nat) (op : Operation) :
    (issue k op).filterMap (Notice.returned? n) = [] := by
  unfold issue
  cases op.request? <;> rfl

theorem asked?_letGo (engine : Engine) (n k : Nat) (op : Operation) :
    (engine.letGo k op).2.filterMap (Notice.asked? n) = [] := by
  apply List.filterMap_eq_nil_iff.mpr
  intro notice hnotice
  obtain ⟨owner, rfl⟩ := mem_letGo_snd engine k op hnotice
  rfl

theorem returned?_letGo (engine : Engine) (n k : Nat) (op : Operation) :
    (engine.letGo k op).2.filterMap (Notice.returned? n) = [] := by
  apply List.filterMap_eq_nil_iff.mpr
  intro notice hnotice
  obtain ⟨owner, rfl⟩ := mem_letGo_snd engine k op hnotice
  rfl

theorem Turn.guard_eq {engine after : Engine} {event : Event} {notices : List Notice}
    (turn : Turn engine event after notices) : after.guard = engine.guard := by
  cases turn <;> rfl

/-- **An event concerns one operation only.** -/
theorem Turn.frame {engine after : Engine} {event : Event} {notices : List Notice}
    (turn : Turn engine event after notices) {n : Nat} (h : event.number ≠ n) :
    after.find? n = engine.find? n ∧ notices.filterMap (Notice.asked? n) = [] ∧
      notices.filterMap (Notice.returned? n) = [] := by
  have hne : n ≠ event.number := Ne.symm h
  -- in every turn but an idle one, what changes is what is under way with the number of the event
  cases turn with
  | begun k op =>
    exact ⟨find?_put_of_ne _ _ _ hne, asked?_issue_of_ne h op, returned?_issue ..⟩
  | idle _ => exact ⟨rfl, rfl, rfl⟩
  | heard answers live asks goesOn free =>
    exact ⟨find?_put_of_ne _ _ _ hne, asked?_issue_of_ne h _, returned?_issue ..⟩
  | queued answers live asks goesOn waits taken =>
    exact ⟨find?_put_of_ne _ _ _ hne, rfl, rfl⟩
  | entered answers live asks goesOn waits free gets =>
    exact ⟨find?_put_of_ne _ _ _ hne, asked?_issue_of_ne h _, returned?_issue ..⟩
  | looked live waits owns gets =>
    exact ⟨find?_put_of_ne _ _ _ hne, asked?_issue_of_ne h _, returned?_issue ..⟩
  | @returned k op request outcome answers live asks ends =>
    refine ⟨find?_discard_of_ne _ _ hne, asked?_letGo .., ?_⟩
    have hother : Notice.returned? n (.returned k outcome) = none := if_neg h
    rw [List.filterMap_cons_none hother]
    exact returned?_letGo ..
  | cancelled live => exact ⟨find?_discard_of_ne _ _ hne, asked?_letGo .., returned?_letGo ..⟩

end Engine

end Dockmaster
