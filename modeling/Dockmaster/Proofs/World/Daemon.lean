import Dockmaster.Proofs.World.Flight

/-!
# What is relied on of a daemon

`Honest` says of a state of a daemon that inspections and removals do what they should: a record
carries the id of the container that was named, and a removal that succeeds deletes it. `Lawful`
says this of all states of a run, and that ids are never used again and never name another
container.

Requests that are made to fail are left out of it: they have no effect, and nothing is relied on
beyond that. Nothing at all is said of stopping, restarting, pulling, creating, connecting and
starting.
-/

namespace Dockmaster.World

variable {σ : Type}

/-- What a daemon does in a state, where `resolve` tells the id of the container that a reference
names. -/
structure Honest (server : Operation.Server σ) (resolve : σ → String → Option String) (s : σ) :
    Prop where
  /-- The id of a container names it. -/
  named : ∀ {reference id}, resolve s reference = some id → resolve s id = some id
  /-- A record carries the id of the container that was named. -/
  told : ∀ {reference info}, (server s (.inspect reference)).2 = .ok info →
    ∃ id, resolve s reference = some id ∧ info.id = some id
  /-- What names no container is not found. -/
  missing : ∀ {reference}, resolve s reference = none →
    ∃ message, (server s (.inspect reference)).2 = .error (.response 404 message)
  /-- A removal that succeeds deletes the container that was named. -/
  removed : ∀ {reference force}, (server s (.remove reference force)).2 = .ok () →
    ∃ id, resolve s reference = some id ∧
      resolve (server s (.remove reference force)).1 id ≠ some id

/-- The state of the daemon after some events. -/
def daemonAfter (server : Operation.Server σ) (w : World σ) (events : List Event) : σ :=
  (w.after server events).daemon

theorem daemonAfter_snoc (server : Operation.Server σ) (w : World σ)
    (past : List Event) (event : Event) :
    w.daemonAfter server (past ++ [event]) = ((w.after server past).step server event).daemon := by
  unfold daemonAfter
  rw [after_append, after_singleton]

/-- **The assumptions on a daemon** in a run. -/
structure Lawful (server : Operation.Server σ) (resolve : σ → String → Option String) (w : World σ)
    (events : List Event) : Prop where
  /-- The daemon is honest all the time. -/
  honest : ∀ {past}, past <+: events → Honest server resolve (w.daemonAfter server past)
  /-- The id of a container never names another one. -/
  own : ∀ {past later id other}, past <+: later → later <+: events →
    resolve (w.daemonAfter server past) id = some id →
    resolve (w.daemonAfter server later) id = some other → other = id
  /-- The id of a container that is gone never comes back. -/
  gone : ∀ {past later last id}, past <+: later → later <+: last → last <+: events →
    resolve (w.daemonAfter server past) id = some id →
    resolve (w.daemonAfter server later) id = none → resolve (w.daemonAfter server last) id = none

/-! ### Services -/

section Service

variable {server : Operation.Server σ} {w : World σ}

/-- Whatever is served is the request of an operation on its way. -/
theorem service?_eq_some {event : Event} {service : Service}
    (h : w.service? server event = some service) :
    ∃ request, w.flights service.number = some ⟨request, none⟩ ∧
      service.exchange =
        ⟨request, (attend server w.daemon service.fault request).2 request⟩ ∧
      (w.step server event).daemon = (attend server w.daemon service.fault request).1 := by
  have turn := turn_step server w event
  rw [h] at turn
  generalize w.step server event = after, w.engineEvent? event = driven at turn ⊢
  cases turn with
  | served fault flight => exact ⟨_, flight, rfl, rfl⟩

/-- A request that succeeds was not made to fail. -/
theorem attend_eq_ok {s : σ} {fault : Option DaemonFault} {request : Request}
    {reply : request.Reply} (h : (attend server s fault request).2 request = .ok reply) :
    fault = none ∧ (server s request).2 = .ok reply := by
  cases fault with
  | none => exact ⟨rfl, h⟩
  | some fault => cases h

/-- What is served in a run is served at some moment. -/
theorem exists_moment_of_service {events : List Event} {service : Service}
    (h : service ∈ w.services server events) :
    ∃ past event future, events = past ++ event :: future ∧
      (w.after server past).service? server event = some service := by
  induction events generalizing w with
  | nil => exact absurd h List.not_mem_nil
  | cons event rest ih =>
    rw [services] at h
    rcases List.mem_append.mp h with h | h
    · exact ⟨[], event, rest, rfl, Option.mem_toList.mp h⟩
    · obtain ⟨past, last, future, rfl, hlast⟩ := ih h
      exact ⟨event :: past, last, future, rfl, hlast⟩

theorem exists_service_of_served {n : Nat} {events : List Event} {exchange : Exchange}
    (h : exchange ∈ w.served server n events) :
    ∃ fault, (⟨n, fault, exchange⟩ : Service) ∈ w.services server events := by
  obtain ⟨service, hservice, rfl⟩ := List.mem_map.mp h
  obtain ⟨hmem, hnumber⟩ := List.mem_filter.mp hservice
  obtain rfl : service.number = n := by simpa using hnumber
  exact ⟨service.fault, hmem⟩

end Service

end Dockmaster.World
