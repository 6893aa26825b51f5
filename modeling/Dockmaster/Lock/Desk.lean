import Dockmaster.Lock.Table

/-!
# Acquisitions step by step

A desk is a lock table together with the acquisitions that are under way, each under a name of its
own. An acquisition is made and looked at for the first time in one step; later steps look at it
again or drop it.
-/

namespace Dockmaster

/-- An acquisition that is under way. -/
structure Acquisition where
  /-- The name. -/
  name : String
  /-- The id of which it takes the lock. -/
  id : String
  /-- Whether it was seen to hold the lock. -/
  held : Bool
  deriving DecidableEq, Repr

/-- A lock table and the acquisitions under way. -/
structure Desk where
  /-- The locks. -/
  table : LockTable String
  /-- The acquisitions, the oldest first. -/
  live : List Acquisition
  deriving DecidableEq, Repr

namespace Desk

/-- One step at a desk. -/
inductive Step where
  /-- A new acquisition of the lock of an id, looked at once. -/
  | acquire (name id : String)
  /-- Another look at an acquisition. -/
  | poll (name : String)
  /-- The end of an acquisition. -/
  | drop (name : String)
  deriving DecidableEq, Repr

/-- What a step finds. -/
inductive Answer where
  /-- The acquisition holds the lock. -/
  | held
  /-- The acquisition is waiting. -/
  | waiting
  /-- There is nothing to look at or to drop. -/
  | none
  /-- A lock was let go. -/
  | released
  /-- A waiting acquisition was given up. -/
  | cancelled
  deriving DecidableEq, Repr

/-- The desk at which nothing has happened. -/
def empty : Desk := ⟨.empty, []⟩

/-- The acquisition with a name. -/
def find? (desk : Desk) (name : String) : Option Acquisition :=
  desk.live.find? (·.name = name)

/-- The acquisitions without the one with a name. -/
def without (desk : Desk) (name : String) : List Acquisition :=
  desk.live.filter (·.name ≠ name)

/-- The desk after a step, and what the step finds. -/
def step (desk : Desk) : Step → Desk × Answer
  | .acquire name id =>
    let (table, held) := desk.table.acquire id name
    (⟨table, desk.live ++ [⟨name, id, held⟩]⟩, if held then .held else .waiting)
  | .poll name =>
    match desk.find? name with
    | some ⟨_, _, false⟩ =>
      if desk.table.isOwner name then
        let live := desk.live.map fun a => if a.name = name then { a with held := true } else a
        (⟨desk.table, live⟩, .held)
      else (desk, .waiting)
    | _ => (desk, .none)
  | .drop name =>
    match desk.find? name with
    | some ⟨_, _, true⟩ => (⟨desk.table.release name, desk.without name⟩, .released)
    | some ⟨_, _, false⟩ => (⟨desk.table.abandon name, desk.without name⟩, .cancelled)
    | none => (desk, .none)

end Desk

end Dockmaster
