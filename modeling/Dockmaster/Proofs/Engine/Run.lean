import Dockmaster.Proofs.Engine.Step
import Dockmaster.Proofs.Operation.Story
import Mathlib.Data.List.Induction
import Mathlib.Data.List.Nodup
import Mathlib.Data.List.Pairwise

/-!
# Runs of the engine

A run is any list of events in which operations begin with nothing done and under numbers of their
own (`Engine.Legal`). Answers may say anything and events may come in any order, so a property of
all runs holds for every daemon, every schedule and every choice of cancellations.

The share that an operation has in a run is what it asks for, what it hears and what it returns.
`standing` says where an operation can stand: on its path, or over with the outcome of its last
phase, or dropped by a cancellation on the way. In each case it has asked for what its path says.
-/

namespace Dockmaster.Engine

/-! ### What happens in a run -/

/-- The engine after some events. -/
def after (engine : Engine) (events : List Event) : Engine :=
  events.foldl (fun engine event => (engine.step event).1) engine

/-- What some events bring about. -/
def notices (engine : Engine) : List Event → List Notice
  | [] => []
  | event :: rest => (engine.step event).2 ++ notices (engine.step event).1 rest

/-- What an operation asks for in the course of some events. -/
def asked (engine : Engine) (n : Nat) (events : List Event) : List Request :=
  (engine.notices events).filterMap (Notice.asked? n)

/-- What an operation returns in the course of some events. -/
def returned (engine : Engine) (n : Nat) (events : List Event) : List Outcome :=
  (engine.notices events).filterMap (Notice.returned? n)

/-- The request of an operation that an event answers, with the answer. -/
def hears? (engine : Engine) (n : Nat) : Event → Option Exchange
  | .answer k answers =>
    if k = n then
      ((engine.find? n).bind (·.request?)).map fun request => ⟨request, answers request⟩
    else none
  | _ => none

/-- What an operation hears in the course of some events. -/
def heard (engine : Engine) (n : Nat) : List Event → List Exchange
  | [] => []
  | event :: rest => (engine.hears? n event).toList ++ heard (engine.step event).1 n rest

section Append

variable (engine : Engine) (n : Nat) (first second : List Event)

theorem after_append : engine.after (first ++ second) = (engine.after first).after second :=
  List.foldl_append ..

theorem notices_append :
    engine.notices (first ++ second) =
      engine.notices first ++ (engine.after first).notices second := by
  induction first generalizing engine with
  | nil => rfl
  | cons event rest ih =>
    rw [List.cons_append, notices, notices, ih, List.append_assoc]
    rfl

theorem asked_append :
    engine.asked n (first ++ second) =
      engine.asked n first ++ (engine.after first).asked n second := by
  unfold asked
  rw [notices_append, List.filterMap_append]

theorem returned_append :
    engine.returned n (first ++ second) =
      engine.returned n first ++ (engine.after first).returned n second := by
  unfold returned
  rw [notices_append, List.filterMap_append]

theorem heard_append :
    engine.heard n (first ++ second) =
      engine.heard n first ++ (engine.after first).heard n second := by
  induction first generalizing engine with
  | nil => rfl
  | cons event rest ih =>
    rw [List.cons_append, heard, heard, ih, List.append_assoc]
    rfl

end Append

section Singleton

variable (engine : Engine) (n : Nat) (event : Event)

@[simp] theorem after_singleton : engine.after [event] = (engine.step event).1 := rfl

@[simp] theorem asked_singleton :
    engine.asked n [event] = (engine.step event).2.filterMap (Notice.asked? n) := by
  unfold asked notices notices
  rw [List.append_nil]

@[simp] theorem returned_singleton :
    engine.returned n [event] = (engine.step event).2.filterMap (Notice.returned? n) := by
  unfold returned notices notices
  rw [List.append_nil]

@[simp] theorem heard_singleton :
    engine.heard n [event] = (engine.hears? n event).toList := by
  unfold heard heard
  rw [List.append_nil]

theorem hears?_of_ne {n : Nat} (h : event.number ≠ n) : engine.hears? n event = none := by
  cases event with
  | answer k answers => exact if_neg h
  | _ => rfl

theorem guard_after (events : List Event) : (engine.after events).guard = engine.guard := by
  induction events generalizing engine with
  | nil => rfl
  | cons event rest ih => exact (ih _).trans (turn_step engine event).guard_eq

end Singleton

/-! ### Legal runs -/

/-- The number under which an event has an operation begin. -/
def Event.begun? : Event → Option Nat
  | .begin n _ => some n
  | _ => none

/-- A run in which operations begin with nothing done and under numbers of their own. -/
structure Legal (events : List Event) : Prop where
  /-- Nothing is done before an operation begins. -/
  fresh : ∀ n op, .begin n op ∈ events → op.IsNew
  /-- No number is used twice. -/
  apart : (events.filterMap Event.begun?).Nodup

theorem Legal.of_append {first second : List Event} (h : Legal (first ++ second)) :
    Legal first where
  fresh n op hmem := h.fresh n op (List.mem_append_left _ hmem)
  apart := by
    have hapart := h.apart
    rw [List.filterMap_append] at hapart
    exact (List.nodup_append.mp hapart).1

/-- Whether an operation begins under a number. -/
def Begins (events : List Event) (n : Nat) : Prop := ∃ op, .begin n op ∈ events

theorem Legal.not_begins {events : List Event} {n : Nat} {op : Operation}
    (h : Legal (events ++ [.begin n op])) : ¬ Begins events n := by
  rintro ⟨other, hmem⟩
  have hapart := h.apart
  rw [List.filterMap_append] at hapart
  refine (List.nodup_append.mp hapart).2.2 n ?_ n ?_ rfl
  · exact List.mem_filterMap.mpr ⟨_, hmem, rfl⟩
  · exact List.mem_filterMap.mpr ⟨_, List.mem_singleton_self _, rfl⟩

/-- A number is used for one operation. -/
theorem Legal.eq_of_begin {events : List Event} (h : Legal events) {n : Nat}
    {op other : Operation} (hop : .begin n op ∈ events) (hother : .begin n other ∈ events) :
    op = other := by
  by_contra hne
  -- two such events would stand at different places and have the same number
  have hapart := List.pairwise_filterMap.mp h.apart
  have hsymm : Std.Symm fun e e' : Event =>
      ∀ k, e.begun? = some k → ∀ k', e'.begun? = some k' → k ≠ k' :=
    ⟨fun _ _ hee' k hk k' hk' => Ne.symm (hee' k' hk' k hk)⟩
  exact hapart.forall hop hother (fun heq => hne (Event.begin.inj heq).2) n rfl n rfl rfl

/-! ### Where an operation stands -/

/-- **Where an operation stands** in a run: whether it is under way, what it has asked for, heard
and returned. -/
inductive Standing (guard : Guard) (first : Operation) (cancelled : Prop) :
    Option Operation → List Request → List Exchange → List Outcome → Prop
  /-- The operation is under way. -/
  | running {heard : List Exchange} {op : Operation}
      (path : Operation.Path guard first heard op) :
      Standing guard first cancelled (some op)
        (heard.map (·.request) ++ op.request?.toList) heard []
  /-- The operation was dropped on its way. -/
  | dropped {heard : List Exchange} {op : Operation} (why : cancelled)
      (path : Operation.Path guard first heard op) :
      Standing guard first cancelled none (heard.map (·.request) ++ op.request?.toList) heard []
  /-- The operation has returned. -/
  | ended {heard : List Exchange} {op : Operation} {request : Request} {outcome : Outcome}
      (answers : Answers) (path : Operation.Path guard first heard op)
      (asks : op.request? = some request) (ends : op.resume guard answers = .finished outcome) :
      Standing guard first cancelled none (heard.map (·.request) ++ [request])
        (heard ++ [⟨request, answers request⟩]) [outcome]

section Standing

variable {guard : Guard} {first : Operation} {cancelled : Prop} {asked : List Request}
  {heard : List Exchange} {returned : List Outcome}

theorem Standing.of_live {op : Operation}
    (h : Standing guard first cancelled (some op) asked heard returned) :
    Operation.Path guard first heard op ∧
      asked = heard.map (·.request) ++ op.request?.toList ∧ returned = [] := by
  cases h with
  | running path => exact ⟨path, rfl, rfl⟩

/-- An operation has asked for what its path says, wherever it stands. -/
theorem Standing.asked_eq {live : Option Operation}
    (h : Standing guard first cancelled live asked heard returned) :
    ∃ (before : List Exchange) (op : Operation), Operation.Path guard first before op ∧
      asked = before.map (·.request) ++ op.request?.toList := by
  cases h with
  | running path => exact ⟨_, _, path, rfl⟩
  | dropped why path => exact ⟨_, _, path, rfl⟩
  | ended answers path asks ends => exact ⟨_, _, path, by rw [asks]; rfl⟩

theorem Standing.running_of {op : Operation} (path : Operation.Path guard first heard op)
    (h : asked = heard.map (·.request) ++ op.request?.toList) :
    Standing guard first cancelled (some op) asked heard [] :=
  h ▸ .running path

theorem Standing.mono {later : Prop} (h : cancelled → later) {live : Option Operation}
    (standing : Standing guard first cancelled live asked heard returned) :
    Standing guard first later live asked heard returned := by
  cases standing with
  | running path => exact .running path
  | dropped why path => exact .dropped (h why) path
  | ended answers path asks ends => exact .ended answers path asks ends

/-- An operation that begins stands at the beginning. -/
theorem standing_begin {engine : Engine} {n : Nat} {op : Operation} :
    Standing guard op cancelled ((engine.step (.begin n op)).1.find? n)
      (engine.asked n [.begin n op]) (engine.heard n [.begin n op])
      (engine.returned n [.begin n op]) := by
  rw [asked_singleton, returned_singleton, heard_singleton]
  have hissue := asked?_issue_self n op
  have hnone := returned?_issue n n op
  show Standing guard op cancelled ((engine.put n op).find? n) _ [] _
  rw [find?_put_self]
  unfold step
  dsimp only
  rw [hissue, hnone]
  exact .running .first

/-- An answer that an operation waits for is heard. -/
theorem heard_answer {engine : Engine} {n : Nat} {op : Operation} {request : Request}
    (live : engine.find? n = some op) (asks : op.request? = some request) (answers : Answers) :
    engine.heard n [.answer n answers] = [⟨request, answers request⟩] := by
  rw [heard_singleton]
  unfold hears?
  dsimp only
  rw [if_pos rfl, live, Option.bind_some, asks]
  rfl

theorem heard_of_idle {engine : Engine} {event : Event} (h : engine.Idle event) (n : Nat) :
    engine.heard n [event] = [] := by
  rw [heard_singleton]
  cases event with
  | answer k answers =>
    have hidle : (engine.find? k).bind (·.request?) = none := h
    unfold hears?
    dsimp only
    split_ifs with hk
    · rw [← hk, hidle]
      rfl
    · rfl
  | _ => rfl

/-- An event about an operation under way takes it along its path, to its end or off its path. -/
theorem Standing.step {engine : Engine} {n : Nat} {event : Event} (hnumber : event.number = n)
    (hbegun : event.begun? = none) (hguard : engine.guard = guard)
    (standing : Standing guard first cancelled (engine.find? n) asked heard returned) :
    Standing guard first (cancelled ∨ event = .cancel n) ((engine.step event).1.find? n)
      (asked ++ engine.asked n [event]) (heard ++ engine.heard n [event])
      (returned ++ engine.returned n [event]) := by
  rw [asked_singleton, returned_singleton]
  have turn := turn_step engine event
  subst hguard
  generalize (engine.step event).1 = after, (engine.step event).2 = notices at turn
  cases turn with
  | begun k op => cases hbegun
  | idle h =>
    rw [heard_of_idle h]
    simpa using standing.mono .inl
  | @heard k op next request answers live asks goesOn free =>
    obtain rfl : k = n := hnumber
    rw [live] at standing
    obtain ⟨path, rfl, rfl⟩ := standing.of_live
    rw [find?_put_self, asked?_issue_self, returned?_issue, heard_answer live asks, asks]
    refine .running_of (path.heard answers asks goesOn) ?_
    simp
  | @queued k op next request id answers live asks goesOn waits taken =>
    -- the operation hears the answer and asks for nothing, since it waits
    obtain rfl : k = n := hnumber
    rw [live] at standing
    obtain ⟨path, rfl, rfl⟩ := standing.of_live
    rw [find?_put_self, heard_answer live asks, asks]
    refine .running_of (path.heard answers asks goesOn) ?_
    rw [Operation.request?_of_awaitedLock? waits]
    simp [Notice.asked?]
  | @entered k op next inside request id answers live asks goesOn waits free gets =>
    -- one event takes the operation two phases further
    obtain rfl : k = n := hnumber
    rw [live] at standing
    obtain ⟨path, rfl, rfl⟩ := standing.of_live
    rw [find?_put_self, asked?_issue_self, returned?_issue, heard_answer live asks, asks]
    refine .running_of ((path.heard answers asks goesOn).locked answers waits gets) ?_
    simp
  | @looked k op inside id live waits owns gets =>
    obtain rfl : k = n := hnumber
    rw [live] at standing
    obtain ⟨path, rfl, rfl⟩ := standing.of_live
    have hheard : engine.heard k [.look k] = [] := rfl
    rw [find?_put_self, asked?_issue_self, returned?_issue, hheard, List.append_nil,
      Operation.request?_of_awaitedLock? waits]
    refine .running_of (path.locked noAnswers waits gets) ?_
    simp
  | @returned k op request outcome answers live asks ends =>
    obtain rfl : k = n := hnumber
    rw [live] at standing
    obtain ⟨path, rfl, rfl⟩ := standing.of_live
    rw [find?_discard_self, heard_answer live asks, asks]
    have hreturned : Notice.returned? k (.returned k outcome) = some outcome := if_pos rfl
    rw [List.filterMap_cons_none rfl, List.filterMap_cons_some hreturned, asked?_letGo,
      returned?_letGo, List.append_nil]
    exact .ended answers path asks ends
  | @cancelled k op live =>
    obtain rfl : k = n := hnumber
    rw [live] at standing
    obtain ⟨path, rfl, rfl⟩ := standing.of_live
    have hheard : engine.heard k [.cancel k] = [] := rfl
    rw [find?_discard_self, asked?_letGo, returned?_letGo, hheard, List.append_nil, List.append_nil]
    exact .dropped (.inr rfl) path

end Standing

/-! ### The share of an operation -/

section Share

variable (guard : Guard) {events : List Event}

/-- An event about another operation is no part of the share of an operation. -/
theorem share_of_ne (engine : Engine) {event : Event} {n : Nat} (h : event.number ≠ n) :
    (engine.step event).1.find? n = engine.find? n ∧ engine.asked n [event] = [] ∧
      engine.heard n [event] = [] ∧ engine.returned n [event] = [] := by
  obtain ⟨hfind, hasked, hreturned⟩ := (turn_step engine event).frame h
  rw [asked_singleton, heard_singleton, returned_singleton, hears?_of_ne engine event h]
  exact ⟨hfind, hasked, rfl, hreturned⟩

/-- An operation that is not under way has no share in what does not make it begin. -/
theorem share_of_not_live {engine : Engine} {event : Event} {n : Nat}
    (hlive : engine.find? n = none) (hbegun : event.begun? ≠ some n) :
    (engine.step event).1.find? n = none ∧ engine.asked n [event] = [] ∧
      engine.heard n [event] = [] ∧ engine.returned n [event] = [] := by
  by_cases hnumber : event.number = n
  · -- there is nothing for the event to find
    have hidle : engine.Idle event := by
      cases event with
      | begin k op => exact hbegun (congrArg some hnumber)
      | answer k answers =>
        obtain rfl : k = n := hnumber
        simp [Idle, hlive]
      | look k =>
        obtain rfl : k = n := hnumber
        simp [Idle, hlive]
      | cancel k =>
        obtain rfl : k = n := hnumber
        exact hlive
    have hstep : engine.step event = (engine, []) := step_of_idle hidle
    rw [asked_singleton, returned_singleton, heard_of_idle hidle, hstep]
    exact ⟨hlive, rfl, rfl, rfl⟩
  · rw [← hlive]
    exact share_of_ne engine hnumber

/-- **What an event is for one operation**: the phase that the operation is in afterwards, what it
asks for and what it hears. -/
inductive Move (engine : Engine) (n : Nat) :
    Event → Option Operation → List Request → List Exchange → Prop
  /-- The event is about another operation, or there is nothing to do. -/
  | rests {event : Event} (h : event.number ≠ n ∨ engine.Idle event) :
      Move engine n event (engine.find? n) [] []
  /-- The operation begins. -/
  | begins (op : Operation) : Move engine n (.begin n op) (some op) op.request?.toList []
  /-- The operation hears an answer, and goes on or is over. -/
  | hears {op : Operation} {request : Request} (answers : Answers) (next : Option Operation)
      (live : engine.find? n = some op) (asks : op.request? = some request) :
      Move engine n (.answer n answers) next (next.bind (·.request?)).toList
        [⟨request, answers request⟩]
  /-- The operation gets the lock that it waited for. -/
  | enters {op : Operation} (next : Operation) (live : engine.find? n = some op)
      (waits : op.request? = none) : Move engine n (.look n) (some next) next.request?.toList []
  /-- The operation is cancelled. -/
  | stops : Move engine n (.cancel n) none [] []

/-- **Every event is a move** of every operation. -/
theorem move_step (engine : Engine) (n : Nat) (event : Event) :
    Move engine n event ((engine.step event).1.find? n) (engine.asked n [event])
      (engine.heard n [event]) := by
  by_cases hnumber : event.number = n
  · have turn := turn_step engine event
    rw [asked_singleton]
    generalize (engine.step event).1 = after, (engine.step event).2 = notices at turn
    cases turn with
    | begun k op =>
      obtain rfl : k = n := hnumber
      rw [find?_put_self, asked?_issue_self]
      exact .begins op
    | idle h =>
      rw [heard_of_idle h]
      exact .rests (.inr h)
    | @heard k op next request answers live asks goesOn free =>
      obtain rfl : k = n := hnumber
      rw [find?_put_self, asked?_issue_self, heard_answer live asks]
      exact .hears answers (some next) live asks
    | @queued k op next request id answers live asks goesOn waits taken =>
      obtain rfl : k = n := hnumber
      have hnext : (some next).bind (·.request?) = none := Operation.request?_of_awaitedLock? waits
      have hmove := Move.hears answers (some next) live asks
      rw [hnext] at hmove
      rw [find?_put_self, heard_answer live asks]
      exact hmove
    | @entered k op next inside request id answers live asks goesOn waits free gets =>
      obtain rfl : k = n := hnumber
      rw [find?_put_self, asked?_issue_self, heard_answer live asks]
      exact .hears answers (some inside) live asks
    | @looked k op inside id live waits owns gets =>
      obtain rfl : k = n := hnumber
      rw [find?_put_self, asked?_issue_self]
      exact .enters inside live (Operation.request?_of_awaitedLock? waits)
    | @returned k op request outcome answers live asks ends =>
      obtain rfl : k = n := hnumber
      rw [find?_discard_self, List.filterMap_cons_none rfl, asked?_letGo, heard_answer live asks]
      exact .hears answers none live asks
    | @cancelled k op live =>
      obtain rfl : k = n := hnumber
      rw [find?_discard_self, asked?_letGo]
      exact .stops
  · obtain ⟨hfind, hasked, hheard, -⟩ := share_of_ne engine hnumber
    rw [hfind, hasked, hheard]
    exact .rests (.inl hnumber)

/-- An operation that asks for something is under way and waits for the answer. -/
theorem live_of_asked {engine : Engine} {event : Event} {n : Nat} {request : Request}
    (h : request ∈ engine.asked n [event]) :
    event.number = n ∧
      ∃ op, (engine.step event).1.find? n = some op ∧ op.request? = some request := by
  have move := move_step engine n event
  generalize (engine.step event).1.find? n = next, engine.asked n [event] = asked,
    engine.heard n [event] = heard at move h
  cases move with
  | rests _ => cases h
  | begins op => exact ⟨rfl, op, rfl, Option.mem_toList.mp h⟩
  | hears answers next live asks =>
    obtain ⟨op, rfl, hop⟩ := Option.bind_eq_some_iff.mp (Option.mem_toList.mp h)
    exact ⟨rfl, op, rfl, hop⟩
  | enters next live waits => exact ⟨rfl, next, rfl, Option.mem_toList.mp h⟩
  | stops => cases h

/-- An operation that has not begun has no share in a run. -/
theorem share_of_not_begins (n : Nat) (h : ¬ Begins events n) :
    ((start guard).after events).find? n = none ∧ (start guard).asked n events = [] ∧
      (start guard).heard n events = [] ∧ (start guard).returned n events = [] := by
  induction events using List.reverseRecOn with
  | nil => exact ⟨rfl, rfl, rfl, rfl⟩
  | append_singleton past event ih =>
    have hpast : ¬ Begins past n := fun ⟨op, hmem⟩ => h ⟨op, List.mem_append_left _ hmem⟩
    have hevent : event.begun? ≠ some n := by
      intro heq
      cases event <;> cases heq
      exact h ⟨_, List.mem_append_right _ (List.mem_singleton_self _)⟩
    obtain ⟨hfind, hasked, hheard, hreturned⟩ := ih hpast
    rw [after_append, asked_append, heard_append, returned_append, hasked, hheard, hreturned]
    exact share_of_not_live hfind hevent

/-- An operation that is over stays over. -/
theorem find?_eq_none_of_over {past future : List Event} (legal : Legal (past ++ future)) {n : Nat}
    (begins : Begins past n) (ended : ((start guard).after past).find? n = none) :
    ((start guard).after (past ++ future)).find? n = none := by
  -- by induction on what comes afterwards, for its last event finds nothing under way
  induction future using List.reverseRecOn with
  | nil =>
    rw [List.append_nil]
    exact ended
  | append_singleton before event ih =>
    rw [← List.append_assoc] at legal ⊢
    rw [after_append, after_singleton]
    refine (share_of_not_live (ih legal.of_append) fun hbegun => ?_).1
    cases event <;> cases hbegun
    obtain ⟨op, hop⟩ := begins
    exact legal.not_begins ⟨op, List.mem_append_left _ hop⟩

/-- An operation that has begun by some moment of a run has begun by then as what it is. -/
theorem Legal.begun_before {past future : List Event} (legal : Legal (past ++ future)) {n : Nat}
    {first : Operation} (begun : .begin n first ∈ past ++ future) (h : Begins past n) :
    .begin n first ∈ past := by
  obtain ⟨other, hother⟩ := h
  rwa [legal.eq_of_begin begun (List.mem_append_left _ hother)]

theorem begins_of_asked {n : Nat} (h : (start guard).asked n events ≠ []) : Begins events n := by
  by_contra hnot
  exact h (share_of_not_begins guard n hnot).2.1

theorem begins_of_heard {n : Nat} (h : (start guard).heard n events ≠ []) : Begins events n := by
  by_contra hnot
  exact h (share_of_not_begins guard n hnot).2.2.1

/-- **The share of an operation in a run**: it stands on its path. -/
theorem standing (legal : Legal events) {n : Nat} {first : Operation}
    (begun : .begin n first ∈ events) :
    Standing guard first (.cancel n ∈ events) (((start guard).after events).find? n)
      ((start guard).asked n events) ((start guard).heard n events)
      ((start guard).returned n events) := by
  induction events using List.reverseRecOn with
  | nil => cases begun
  | append_singleton past event ih =>
    rw [after_append, asked_append, heard_append, returned_append, after_singleton]
    rcases List.mem_append.mp begun with hpast | hevent
    · -- the operation has begun before, and the last event takes it further or is about another
      have hstanding := ih legal.of_append hpast
      by_cases hnumber : event.number = n
      · have hbegun : event.begun? = none := by
          cases event with
          | begin k op =>
            obtain rfl : k = n := hnumber
            exact absurd ⟨first, hpast⟩ legal.not_begins
          | _ => rfl
        have hguard : ((start guard).after past).guard = guard := guard_after _ past
        apply (hstanding.step hnumber hbegun hguard).mono
        rintro (hcancel | rfl)
        · exact List.mem_append_left _ hcancel
        · exact List.mem_append_right _ (List.mem_singleton_self _)
      · obtain ⟨hfind, hasked, hheard, hreturned⟩ :=
          share_of_ne ((start guard).after past) hnumber
        rw [hfind, hasked, hheard, hreturned, List.append_nil, List.append_nil, List.append_nil]
        exact hstanding.mono (List.mem_append_left _)
    · -- the operation begins with this event, so it had no share before
      obtain rfl := List.mem_singleton.mp hevent
      obtain ⟨-, hasked, hheard, hreturned⟩ := share_of_not_begins guard n legal.not_begins
      rw [hasked, hheard, hreturned]
      exact standing_begin

/-- What an operation asks for in a run it asks for at some moment. -/
theorem exists_moment_of_asked {engine : Engine} {n : Nat} {request : Request}
    (h : request ∈ engine.asked n events) :
    ∃ past event future, events = past ++ event :: future ∧
      request ∈ (engine.after past).asked n [event] := by
  induction events generalizing engine with
  | nil => exact absurd h List.not_mem_nil
  | cons event rest ih =>
    rw [← List.singleton_append, asked_append] at h
    rcases List.mem_append.mp h with h | h
    · exact ⟨[], event, rest, rfl, h⟩
    · obtain ⟨past, last, future, rfl, hlast⟩ := ih h
      exact ⟨event :: past, last, future, rfl, hlast⟩

/-- Whoever asks to stop, restart or remove a container is an operation on one container. -/
theorem manage_of_target? (legal : Legal events) {n : Nat} {request : Request}
    (hasked : request ∈ (start guard).asked n events) (htarget : request.target? ≠ none) :
    ∃ action reference, .begin n (.manage action reference .resolving) ∈ events := by
  obtain ⟨first, hbegun⟩ := begins_of_asked guard (List.ne_nil_of_mem hasked)
  cases hmanage : first.isManage with
  | true =>
    obtain ⟨action, reference, rfl⟩ :=
      (legal.fresh n first hbegun).eq_of_isManage hmanage
    exact ⟨action, reference, hbegun⟩
  | false =>
    obtain ⟨heard, op, path, heq⟩ := (standing guard legal hbegun).asked_eq
    rw [heq] at hasked
    exact absurd (path.target?_of_not_isManage hmanage request hasked) htarget

/-- The share of an operation that stops, restarts or updates a container: either it is still in a
phase, or was dropped in it, with the story that the phase has, or it returned from the phase. -/
theorem share_of_manage (legal : Legal events) {n : Nat} {action : Lifecycle.Action}
    {reference : String} (begun : .begin n (.manage action reference .resolving) ∈ events) :
    ∃ phase heard, Lifecycle.Story guard action reference heard phase ∧
      (((start guard).heard n events = heard ∧
        (start guard).asked n events =
          heard.map Exchange.request ++ (phase.request? reference).toList ∧
        (start guard).returned n events = [] ∧
        (((start guard).after events).find? n = some (.manage action reference phase) ∨
          ((start guard).after events).find? n = none ∧ .cancel n ∈ events)) ∨
      ∃ request answers result, phase.request? reference = some request ∧
        Lifecycle.resume guard action reference answers phase = .finished result ∧
        (start guard).heard n events = heard ++ [⟨request, answers request⟩] ∧
        (start guard).asked n events = heard.map Exchange.request ++ [request] ∧
        (start guard).returned n events = [result.map Operation.valueOfId] ∧
        ((start guard).after events).find? n = none) := by
  have hstanding := standing guard legal begun
  generalize ((start guard).after events).find? n = live, (start guard).asked n events = asked,
    (start guard).heard n events = heard, (start guard).returned n events = returned at hstanding
  cases hstanding with
  | running path =>
    obtain ⟨phase, rfl, story⟩ := Operation.story_of_path path
    exact ⟨phase, heard, story, .inl ⟨rfl, rfl, rfl, .inl rfl⟩⟩
  | dropped why path =>
    obtain ⟨phase, rfl, story⟩ := Operation.story_of_path path
    exact ⟨phase, heard, story, .inl ⟨rfl, rfl, rfl, .inr ⟨rfl, why⟩⟩⟩
  | ended answers path asks ends =>
    obtain ⟨phase, rfl, story⟩ := Operation.story_of_path path
    simp only [Operation.resume, Progress.map] at ends
    split at ends
    · cases ends
    · rename_i result hresult
      cases ends
      exact ⟨phase, _, story, .inr ⟨_, answers, result, asks, hresult, rfl, rfl, rfl, rfl⟩⟩

/-- **At most one replacement** in the share of an operation. -/
theorem creates_of_asked (legal : Legal events) {n : Nat} {action : Lifecycle.Action}
    {reference : String} (begun : .begin n (.manage action reference .resolving) ∈ events)
    {first : InspectRecord} {rest : List Exchange}
    (hheard : (start guard).heard n events = ⟨.inspect reference, .ok first⟩ :: rest) :
    ((start guard).asked n events).countP (·.isCreate) ≤ 1 ∧
      (0 < ((start guard).asked n events).countP (·.isCreate) →
        action = .update ∧
          ⟨.remove (first.id.getD reference) true, .ok ()⟩ ∈ (start guard).heard n events) := by
  obtain ⟨phase, heard, story, hshare⟩ := share_of_manage guard legal begun
  obtain ⟨hpre, hasked⟩ : heard <+: (start guard).heard n events ∧
      (start guard).asked n events =
        heard.map Exchange.request ++ (phase.request? reference).toList := by
    rcases hshare with ⟨rfl, hasked, -, -⟩ | ⟨request, _, _, hasks, -, heq, hasked, -, -⟩
    · exact ⟨List.prefix_rfl, hasked⟩
    · rw [heq, hasked, hasks]
      exact ⟨List.prefix_append _ _, rfl⟩
  obtain ⟨hone, hcreate⟩ := story.creates
  rw [hasked]
  refine ⟨hone, fun hpos => ?_⟩
  obtain ⟨haction, fullId, hfull, hremoved⟩ := hcreate hpos
  -- the first of what was heard then is the first of what was heard at all
  obtain ⟨before, hbefore⟩ : ∃ before, heard = ⟨.inspect reference, .ok first⟩ :: before := by
    rw [hheard] at hpre
    rcases List.prefix_cons_iff.mp hpre with rfl | ⟨before, hbefore, -⟩
    · exact absurd hremoved List.not_mem_nil
    · exact ⟨before, hbefore⟩
  obtain rfl := Option.some.inj (hfull.symm.trans (story.fullId?_eq hbefore))
  exact ⟨haction, hpre.subset hremoved⟩

end Share

end Dockmaster.Engine
