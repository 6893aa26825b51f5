import Dockmaster.Lock.Desk
import Mathlib.Data.List.Nodup

/-!
# Queues for locks

The plain idea behind the lock table: each id has one queue, which is always there, and an
acquisition stands in the queue of its id from the step in which it is made until it is dropped. It
holds the lock while it is at the head.

`Queues.step` answers the steps at a desk by this idea, for acquisitions of which each has a name of
its own. A step concerns the queue of one id only (`Queues.target?`), so what the steps about an id
find is what they find in its queue alone (`Queues.answers_about`).
-/

namespace Dockmaster

/-! ### Steps and answers -/

namespace Desk

/-- The name of the acquisition that a step is about. -/
def Step.name : Step → String
  | .acquire name _ => name
  | .poll name => name
  | .drop name => name

/-- The acquisition that a step makes: its name and the id. -/
def Step.made? : Step → Option (String × String)
  | .acquire name id => some (name, id)
  | _ => none

/-- The acquisitions that some steps make, in the order in which they make them. -/
def made (steps : List Step) : List (String × String) := steps.filterMap Step.made?

/-- The desk after some steps. -/
def after (desk : Desk) (steps : List Step) : Desk :=
  steps.foldl (fun desk step => (desk.step step).1) desk

/-- The id of the lock that the acquisition with a name is for. -/
def homeIn (steps : List Step) (name : String) : Option String :=
  ((made steps).find? (·.1 = name)).map (·.2)

/-- What some steps find, one after another. -/
def answers (desk : Desk) : List Step → List Answer
  | [] => []
  | step :: rest => (desk.step step).2 :: answers (desk.step step).1 rest

end Desk

/-! ### One queue -/

/-- An acquisition after the one with a name was seen to hold its lock. -/
def Acquisition.seen (a : Acquisition) (name : String) : Acquisition :=
  if a.name = name then { a with held := true } else a

theorem Acquisition.seen_of_ne {a : Acquisition} {name : String} (h : a.name ≠ name) :
    a.seen name = a :=
  if_neg h

@[simp] theorem Acquisition.name_seen (a : Acquisition) (name : String) :
    (a.seen name).name = a.name := by
  unfold seen
  split_ifs <;> rfl

@[simp] theorem Acquisition.id_seen (a : Acquisition) (name : String) :
    (a.seen name).id = a.id := by
  unfold seen
  split_ifs <;> rfl

/-- The live acquisitions of the lock of one id, the oldest first. -/
abbrev Queue := List Acquisition

namespace Queue

/-- The queue after a step, and what the step finds. -/
def step (queue : Queue) : Desk.Step → Queue × Desk.Answer
  | .acquire name id =>
    (queue ++ [⟨name, id, queue.isEmpty⟩], if queue.isEmpty then .held else .waiting)
  | .poll name =>
    match queue.find? (·.name = name) with
    | some ⟨_, _, false⟩ =>
      if queue.head?.map (·.name) = some name then
        (queue.map (·.seen name), .held)
      else (queue, .waiting)
    | _ => (queue, .none)
  | .drop name =>
    match queue.find? (·.name = name) with
    | some a => (queue.filter (·.name ≠ name), if a.held then .released else .cancelled)
    | none => (queue, .none)

/-- What some steps find, one after another. -/
def answers (queue : Queue) : List Desk.Step → List Desk.Answer
  | [] => []
  | step :: rest => (queue.step step).2 :: answers (queue.step step).1 rest

end Queue

/-! ### A queue for each id -/

/-- The queues of all ids. -/
abbrev Queues := String → Queue

namespace Queues

/-- The queues at which nothing has happened. -/
def empty : Queues := fun _ => []

/-- The id that a step is about, given the ids that names are used for. -/
def target? (home : String → Option String) : Desk.Step → Option String
  | .acquire _ id => some id
  | .poll name => home name
  | .drop name => home name

/-- The queues after a step, and what the step finds. -/
def step (home : String → Option String) (queues : Queues) (step : Desk.Step) :
    Queues × Desk.Answer :=
  match target? home step with
  | some id =>
    let (queue, answer) := (queues id).step step
    (fun other => if other = id then queue else queues other, answer)
  | none => (queues, .none)

/-- What some steps find, one after another. -/
def answers (home : String → Option String) (queues : Queues) :
    List Desk.Step → List Desk.Answer
  | [] => []
  | step :: rest => (queues.step home step).2 :: answers home (queues.step home step).1 rest

theorem step_of_target {home : String → Option String} {step : Desk.Step} {id : String}
    (h : target? home step = some id) (queues : Queues) :
    queues.step home step =
      (fun other => if other = id then ((queues id).step step).1 else queues other,
        ((queues id).step step).2) := by
  unfold Queues.step
  rw [h]

/-- Steps that are all about one id find what they find in its queue. -/
theorem answers_of_target {home : String → Option String} {id : String} {steps : List Desk.Step}
    (h : ∀ step ∈ steps, target? home step = some id) (queues : Queues) :
    queues.answers home steps = (queues id).answers steps := by
  induction steps generalizing queues with
  | nil => rfl
  | cons step rest ih =>
    have hrest : ∀ step ∈ rest, target? home step = some id :=
      fun s hs => h s (List.mem_cons_of_mem _ hs)
    rw [answers, Queue.answers, ih hrest, step_of_target (h step (List.mem_cons_self ..))]
    dsimp only
    rw [if_pos rfl]

/-- **Independence.** What the steps about one id find is what they find in its queue alone. -/
theorem answers_about (home : String → Option String) (id : String) (steps : List Desk.Step)
    (queues : Queues) :
    ((steps.zip (queues.answers home steps)).filter (target? home ·.1 = some id)).map (·.2) =
      (queues id).answers (steps.filter (target? home · = some id)) := by
  induction steps generalizing queues with
  | nil => rfl
  | cons step rest ih =>
    rw [answers, List.zip_cons_cons]
    by_cases habout : target? home step = some id
    · rw [List.filter_cons_of_pos (by simpa using habout),
        List.filter_cons_of_pos (by simpa using habout), List.map_cons, Queue.answers, ih,
        step_of_target habout]
      dsimp only
      rw [if_pos rfl]
    · -- a step about another id leaves the queue of this one as it is
      have hqueue : (queues.step home step).1 id = queues id := by
        unfold Queues.step
        cases htarget : target? home step with
        | none => rfl
        | some other => exact if_neg fun heq => habout (htarget.trans (congrArg some heq.symm))
      rw [List.filter_cons_of_neg (by simpa using habout),
        List.filter_cons_of_neg (by simpa using habout), ih, hqueue]

end Queues

end Dockmaster
