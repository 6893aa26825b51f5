import Dockmaster.Proofs.Engine.Run

/-!
# Worlds

A world is the engine together with a daemon in some state. What an operation asks for is on its way
(`Flight`) until the daemon serves it and the answer is delivered; both happen at any time and in
any order. A request may be made to fail, in which case it has no effect on the daemon. The request
of a cancelled operation is not called back: the daemon may serve it later, or never.

`World.Turn` lists everything that an event can come to. A run of a world is a run of its engine,
with the answers that the daemon gave (`World.engine_after`).
-/

namespace Dockmaster

/-- A request on its way, with the answers of the daemon once it is served. -/
structure Flight where
  /-- The request. -/
  request : Request
  /-- The answers of the daemon when it served the request. -/
  answers : Option Answers

/-- An engine and a daemon. -/
structure World (σ : Type) where
  /-- The operations. -/
  engine : Engine
  /-- The state of the daemon. -/
  daemon : σ
  /-- The requests on their way, by the number of the operation. -/
  flights : Nat → Option Flight

/-- A request that the daemon served. -/
structure Service where
  /-- The number of the operation that made the request. -/
  number : Nat
  /-- The failure of the request if it was made to fail. -/
  fault : Option DaemonFault
  /-- The request and the answer to it. -/
  exchange : Exchange

namespace World

variable {σ : Type}

/-! ### Steps -/

/-- The world in which nothing has begun. -/
def start (guard : Guard) (daemon : σ) : World σ := ⟨.start guard, daemon, fun _ => none⟩

/-- What can happen to a world. -/
inductive Event where
  /-- An operation begins under a new number. -/
  | begin (n : Nat) (op : Operation)
  /-- The daemon serves the request of an operation, or it fails without effect. -/
  | serve (n : Nat) (fault : Option DaemonFault)
  /-- An operation hears the answer to its request. -/
  | deliver (n : Nat)
  /-- An operation that waits for a lock looks whether it has it. -/
  | look (n : Nat)
  /-- An operation is cancelled, wherever it is. -/
  | cancel (n : Nat)

/-- The world with another flight of an operation. -/
def setFlight (w : World σ) (n : Nat) (flight : Option Flight) : World σ :=
  { w with flights := fun k => if k = n then flight else w.flights k }

/-- The world after an event of the engine. What an operation asks for is on its way from then
on. -/
def drive (w : World σ) (event : Engine.Event) : World σ where
  engine := (w.engine.step event).1
  daemon := w.daemon
  flights n :=
    match (w.engine.asked n [event]).head? with
    | some request => some ⟨request, none⟩
    | none => w.flights n

/-- The state of the daemon after a request that may be made to fail, and the answers. -/
def attend (server : Operation.Server σ) (daemon : σ) (fault : Option DaemonFault)
    (request : Request) : σ × Answers :=
  match fault with
  | some fault => (daemon, fun _ => .error fault)
  | none => ((server daemon request).1, server.answers daemon)

/-- The world after an event. -/
def step (server : Operation.Server σ) (w : World σ) : Event → World σ
  | .begin n op => w.drive (.begin n op)
  | .serve n fault =>
    match w.flights n with
    | some ⟨request, none⟩ =>
      let (daemon, answers) := attend server w.daemon fault request
      { w with daemon }.setFlight n (some ⟨request, some answers⟩)
    | _ => w
  | .deliver n =>
    match w.flights n with
    | some ⟨_, some answers⟩ => (w.setFlight n none).drive (.answer n answers)
    | _ => w
  | .look n => w.drive (.look n)
  | .cancel n => w.drive (.cancel n)

/-- The world after some events. -/
def after (server : Operation.Server σ) (w : World σ) (events : List Event) : World σ :=
  events.foldl (step server) w

/-! ### What happens in a run -/

/-- What an event is for the engine. -/
def engineEvent? (w : World σ) : Event → Option Engine.Event
  | .begin n op => some (.begin n op)
  | .serve _ _ => none
  | .deliver n => ((w.flights n).bind (·.answers)).map (.answer n)
  | .look n => some (.look n)
  | .cancel n => some (.cancel n)

/-- What some events are for the engine. -/
def engineEvents (server : Operation.Server σ) (w : World σ) : List Event → List Engine.Event
  | [] => []
  | event :: rest => (w.engineEvent? event).toList ++ engineEvents server (w.step server event) rest

/-- What the daemon serves in an event. -/
def service? (server : Operation.Server σ) (w : World σ) : Event → Option Service
  | .serve n fault =>
    match w.flights n with
    | some ⟨request, none⟩ =>
      some ⟨n, fault, ⟨request, (attend server w.daemon fault request).2 request⟩⟩
    | _ => none
  | _ => none

/-- What the daemon serves in the course of some events. -/
def services (server : Operation.Server σ) (w : World σ) : List Event → List Service
  | [] => []
  | event :: rest => (w.service? server event).toList ++ services server (w.step server event) rest

/-- What the daemon serves an operation in the course of some events. -/
def served (server : Operation.Server σ) (w : World σ) (n : Nat) (events : List Event) :
    List Exchange :=
  ((w.services server events).filter (·.number = n)).map (·.exchange)

/-- What an operation asks for in the course of some events. -/
def asked (server : Operation.Server σ) (w : World σ) (n : Nat) (events : List Event) :
    List Request :=
  w.engine.asked n (w.engineEvents server events)

/-- What an operation hears in the course of some events. -/
def heard (server : Operation.Server σ) (w : World σ) (n : Nat) (events : List Event) :
    List Exchange :=
  w.engine.heard n (w.engineEvents server events)

/-- What an operation returns in the course of some events. -/
def returned (server : Operation.Server σ) (w : World σ) (n : Nat) (events : List Event) :
    List Outcome :=
  w.engine.returned n (w.engineEvents server events)

/-- A run in which operations begin with nothing done and under numbers of their own. -/
def Legal (server : Operation.Server σ) (w : World σ) (events : List Event) : Prop :=
  Engine.Legal (w.engineEvents server events)

/-! ### Turns -/

/-- **What an event can come to**: the world afterwards, what the event is for the engine, and what
the daemon serves. -/
inductive Turn (server : Operation.Server σ) (w : World σ) :
    Event → World σ → Option Engine.Event → Option Service → Prop
  /-- An operation begins. -/
  | begun (n : Nat) (op : Operation) :
      Turn server w (.begin n op) (w.drive (.begin n op)) (some (.begin n op)) none
  /-- The daemon serves a request, or the request fails without effect. -/
  | served {n : Nat} {request : Request} (fault : Option DaemonFault)
      (flight : w.flights n = some ⟨request, none⟩) :
      Turn server w (.serve n fault)
        ({ w with daemon := (attend server w.daemon fault request).1 }.setFlight n
          (some ⟨request, some (attend server w.daemon fault request).2⟩)) none
        (some ⟨n, fault, ⟨request, (attend server w.daemon fault request).2 request⟩⟩)
  /-- An answer is delivered. -/
  | delivered {n : Nat} {request : Request} {answers : Answers}
      (flight : w.flights n = some ⟨request, some answers⟩) :
      Turn server w (.deliver n) ((w.setFlight n none).drive (.answer n answers))
        (some (.answer n answers)) none
  /-- There is nothing to serve or to deliver. -/
  | idle (event : Event) : Turn server w event w none none
  /-- An operation looks for its lock. -/
  | looked (n : Nat) : Turn server w (.look n) (w.drive (.look n)) (some (.look n)) none
  /-- An operation is cancelled. -/
  | cancelled (n : Nat) : Turn server w (.cancel n) (w.drive (.cancel n)) (some (.cancel n)) none

/-- **Nothing else happens.** -/
theorem turn_step (server : Operation.Server σ) (w : World σ) (event : Event) :
    Turn server w event (w.step server event) (w.engineEvent? event) (w.service? server event) := by
  cases event with
  | begin n op => exact .begun n op
  | serve n fault =>
    unfold step engineEvent? service?
    dsimp only
    cases hflight : w.flights n with
    | none => exact .idle _
    | some flight =>
      obtain ⟨request, _ | answers⟩ := flight
      · exact .served fault hflight
      · exact .idle _
  | deliver n =>
    unfold step engineEvent? service?
    dsimp only
    cases hflight : w.flights n with
    | none => exact .idle _
    | some flight =>
      obtain ⟨request, _ | answers⟩ := flight
      · exact .idle _
      · exact .delivered hflight
  | look n => exact .looked n
  | cancel n => exact .cancelled n

/-! ### Runs one after another -/

section Append

variable (server : Operation.Server σ) (w : World σ) (first second : List Event)

theorem after_append :
    w.after server (first ++ second) = (w.after server first).after server second :=
  List.foldl_append ..

theorem engineEvents_append :
    w.engineEvents server (first ++ second) =
      w.engineEvents server first ++ (w.after server first).engineEvents server second := by
  induction first generalizing w with
  | nil => rfl
  | cons event rest ih =>
    rw [List.cons_append, engineEvents, engineEvents, ih, List.append_assoc]
    rfl

theorem services_append :
    w.services server (first ++ second) =
      w.services server first ++ (w.after server first).services server second := by
  induction first generalizing w with
  | nil => rfl
  | cons event rest ih =>
    rw [List.cons_append, services, services, ih, List.append_assoc]
    rfl

theorem served_append (n : Nat) :
    w.served server n (first ++ second) =
      w.served server n first ++ (w.after server first).served server n second := by
  unfold served
  rw [services_append, List.filter_append, List.map_append]

theorem after_singleton (event : Event) : w.after server [event] = w.step server event := rfl

theorem engineEvents_singleton (event : Event) :
    w.engineEvents server [event] = (w.engineEvent? event).toList := by
  unfold engineEvents engineEvents
  rw [List.append_nil]

theorem services_singleton (event : Event) :
    w.services server [event] = (w.service? server event).toList := by
  unfold services services
  rw [List.append_nil]

/-- One event of a world is at most one event of its engine. -/
theorem engine_step (event : Event) :
    (w.step server event).engine = w.engine.after (w.engineEvent? event).toList := by
  have turn := turn_step server w event
  generalize w.step server event = after, w.engineEvent? event = driven,
    w.service? server event = service at turn
  cases turn <;> rfl

/-- **A run of a world is a run of its engine.** -/
theorem engine_after (events : List Event) :
    (w.after server events).engine = w.engine.after (w.engineEvents server events) := by
  induction events generalizing w with
  | nil => rfl
  | cons event rest ih =>
    rw [engineEvents, Engine.after_append, ← engine_step]
    exact ih _

theorem asked_append (n : Nat) :
    w.asked server n (first ++ second) =
      w.asked server n first ++ (w.after server first).asked server n second := by
  unfold asked
  rw [engineEvents_append, Engine.asked_append, engine_after]

theorem heard_append (n : Nat) :
    w.heard server n (first ++ second) =
      w.heard server n first ++ (w.after server first).heard server n second := by
  unfold heard
  rw [engineEvents_append, Engine.heard_append, engine_after]

theorem returned_append (n : Nat) :
    w.returned server n (first ++ second) =
      w.returned server n first ++ (w.after server first).returned server n second := by
  unfold returned
  rw [engineEvents_append, Engine.returned_append, engine_after]

/-- What only one event is for the engine happens to the engine when that event happens. -/
theorem mem_engineEvents {server : Operation.Server σ} {w : World σ} {events : List Event}
    {event : Event} {driven : Engine.Event}
    (only : ∀ (w : World σ) (other : Event), w.engineEvent? other = some driven ↔ other = event) :
    driven ∈ w.engineEvents server events ↔ event ∈ events := by
  induction events generalizing w with
  | nil => simp [engineEvents]
  | cons head rest ih =>
    rw [engineEvents, List.mem_append, List.mem_cons, Option.mem_toList, only, eq_comm]
    exact or_congr Iff.rfl ih

theorem answer_of_deliver {w : World σ} {k : Nat} {driven : Engine.Event}
    (h : w.engineEvent? (.deliver k) = some driven) : ∃ answers, driven = .answer k answers := by
  obtain ⟨answers, -, rfl⟩ := Option.map_eq_some_iff.mp h
  exact ⟨answers, rfl⟩

/-- An operation begins for the engine when it begins. -/
theorem begin_mem_engineEvents {server : Operation.Server σ} {w : World σ} {events : List Event}
    {n : Nat} {op : Operation} :
    .begin n op ∈ w.engineEvents server events ↔ .begin n op ∈ events := by
  refine mem_engineEvents fun w other => ?_
  cases other with
  | deliver k =>
    refine iff_of_false (fun h => ?_) nofun
    obtain ⟨answers, h⟩ := answer_of_deliver h
    cases h
  | _ => simp [engineEvent?]

theorem cancel_mem_engineEvents {server : Operation.Server σ} {w : World σ} {events : List Event}
    {n : Nat} : .cancel n ∈ w.engineEvents server events ↔ .cancel n ∈ events := by
  refine mem_engineEvents fun w other => ?_
  cases other with
  | deliver k =>
    refine iff_of_false (fun h => ?_) nofun
    obtain ⟨answers, h⟩ := answer_of_deliver h
    cases h
  | _ => simp [engineEvent?]

theorem Legal.of_append {server : Operation.Server σ} {w : World σ} {first second : List Event}
    (h : w.Legal server (first ++ second)) : w.Legal server first := by
  unfold Legal at h
  rw [engineEvents_append] at h
  exact Engine.Legal.of_append h

end Append

end World

end Dockmaster
