import Dockmaster.Lock.Table
import Dockmaster.Operation.Basic

/-!
# The engine

Any number of operations under way at the same time, and the locks that keep those on one container
apart. The engine is driven from outside, by events in any order: an operation begins, the daemon
answers one, one that waits for a lock looks whether it has it, one is cancelled. Each event may
make operations ask the daemon for something, wait, return, or be handed a lock; these are its
notices.

Nothing is said here of when an answer comes or what it is, so that every run of the engine against
every daemon is a list of events.
-/

namespace Dockmaster

/-- What an event brings about. Operations are numbered. -/
inductive Notice where
  /-- An operation asks something of the daemon. -/
  | issued (op : Nat) (request : Request)
  /-- An operation begins to wait for a lock. -/
  | queued (op : Nat) (id : String)
  /-- An operation has its outcome. -/
  | returned (op : Nat) (outcome : Outcome)
  /-- The lock that an operation waits for is handed to it. -/
  | handed (op : Nat)

/-- The operations under way. -/
structure Engine where
  /-- The protected containers. -/
  guard : Guard
  /-- The locks of the containers. -/
  locks : LockTable Nat
  /-- The operations under way, by number. -/
  live : List (Nat × Operation)

namespace Engine

/-- The engine in which nothing has begun. -/
def start (guard : Guard) : Engine := ⟨guard, .empty, []⟩

/-- The operation under way with a number. -/
def find? (engine : Engine) (n : Nat) : Option Operation :=
  (engine.live.find? (·.1 = n)).map (·.2)

/-- The engine with an operation in a phase. -/
def put (engine : Engine) (n : Nat) (op : Operation) : Engine :=
  { engine with live := (n, op) :: engine.live.filter (·.1 ≠ n) }

/-- The engine without an operation. -/
def discard (engine : Engine) (n : Nat) : Engine :=
  { engine with live := engine.live.filter (·.1 ≠ n) }

/-- The notice that a lock was handed on, if it has a new owner. -/
def handedOn (old new : LockTable Nat) (id : String) : List Notice :=
  match new.owner? id with
  | some n => if old.owner? id = some n then [] else [.handed n]
  | none => []

/-- The engine after an operation gives up the lock that it holds or waits for. -/
def letGo (engine : Engine) (n : Nat) (op : Operation) : Engine × List Notice :=
  match op.heldLock?, op.awaitedLock? with
  | some id, _ =>
    let locks := engine.locks.release n
    ({ engine with locks }, handedOn engine.locks locks id)
  | none, some id =>
    let locks := engine.locks.abandon n
    ({ engine with locks }, handedOn engine.locks locks id)
  | none, none => (engine, [])

/-- What an operation asks for in its phase. -/
def issue (n : Nat) (op : Operation) : List Notice :=
  match op.request? with
  | some request => [.issued n request]
  | none => []

/-- The engine after an operation got into a phase. A phase that waits for a lock is passed at once
if the lock is free. -/
def enter (engine : Engine) (n : Nat) (op : Operation) (answers : Answers) :
    Engine × List Notice :=
  match op.awaitedLock? with
  | none => (engine.put n op, issue n op)
  | some id =>
    match engine.locks.acquire id n with
    | (locks, false) => ({ engine with locks }.put n op, [.queued n id])
    | (locks, true) =>
      match op.resume engine.guard answers with
      | .running next => ({ engine with locks }.put n next, issue n next)
      | .finished outcome => ({ engine with locks }.put n op, [.returned n outcome])

/-- The engine after an operation goes on. -/
def goOn (engine : Engine) (n : Nat) (op : Operation) (answers : Answers) :
    Engine × List Notice :=
  match op.resume engine.guard answers with
  | .running next => engine.enter n next answers
  | .finished outcome =>
    let (engine, notices) := engine.letGo n op
    (engine.discard n, .returned n outcome :: notices)

/-- What can happen to the engine. -/
inductive Event where
  /-- An operation begins under a new number. -/
  | begin (n : Nat) (op : Operation)
  /-- The daemon answers what an operation asked for. -/
  | answer (n : Nat) (answers : Answers)
  /-- An operation that waits for a lock looks whether it has it. -/
  | look (n : Nat)
  /-- An operation is cancelled, wherever it is. -/
  | cancel (n : Nat)

/-- The answers to an operation that asks nothing. -/
def noAnswers : Answers := fun _ => .error .timeout

/-- The engine after an event, and what the event brings about. -/
def step (engine : Engine) : Event → Engine × List Notice
  | .begin n op => (engine.put n op, issue n op)
  | .answer n answers =>
    match engine.find? n with
    | some op => if op.request?.isSome then engine.goOn n op answers else (engine, [])
    | none => (engine, [])
  | .look n =>
    match engine.find? n with
    | some op =>
      match op.awaitedLock? with
      | some _ =>
        if engine.locks.isOwner n then engine.goOn n op noAnswers else (engine, [])
      | none => (engine, [])
    | none => (engine, [])
  | .cancel n =>
    match engine.find? n with
    | some op =>
      let (engine, notices) := engine.letGo n op
      (engine.discard n, notices)
    | none => (engine, [])

end Engine

end Dockmaster
