import Dockmaster.Directory

/-!
# The lock table

One lock for each container id, made when it is first asked for and thrown away when the last who
cares for it lets it go. A lock is fair: whoever lets it go hands it to the one who has waited
longest, and from then on nobody else can have it, even before the new owner has noticed.

Whoever asks for a lock gets a ticket, which refers to the lock by its address. A ticket is
*waiting* until its owner looks and finds the lock handed over, and *holds* the lock from then on;
the two are let go in different ways. A holder that lets go has the entry of the id removed if by
then the table alone refers to the lock. A waiting ticket that is given up passes on a lock that it
was handed, but leaves the entry where it is.
-/

namespace Dockmaster

/-! ### One lock -/

/-- The lock of one id. -/
structure Lock (τ : Type) where
  /-- The name that the lock belongs to, whether its bearer has noticed or not. -/
  owner : Option τ
  /-- The names that wait, the longest first. -/
  waiting : List τ
  deriving DecidableEq, Repr

namespace Lock

variable {τ : Type}

/-- The lock that nobody has asked for. -/
def unclaimed : Lock τ := ⟨none, []⟩

/-- Whether the lock belongs to nobody. -/
def isFree (lock : Lock τ) : Bool := lock.owner.isNone

/-- The lock after a name asks for it: it belongs to the name if it is free, and the name waits
otherwise. -/
def ask (lock : Lock τ) (name : τ) : Lock τ :=
  match lock.owner with
  | none => { lock with owner := some name }
  | some _ => { lock with waiting := lock.waiting ++ [name] }

/-- The lock handed to the one who has waited longest, or to nobody. -/
def handOver (lock : Lock τ) : Lock τ :=
  match lock.waiting with
  | [] => ⟨none, []⟩
  | next :: rest => ⟨some next, rest⟩

/-- The lock after a name that was not seen to hold it gives up. -/
def giveUp [DecidableEq τ] (lock : Lock τ) (name : τ) : Lock τ :=
  if lock.owner = some name then lock.handOver
  else { lock with waiting := lock.waiting.erase name }

end Lock

/-! ### The table -/

/-- A reference to a lock, kept from the moment when the lock is asked for until it is let go. -/
structure Ticket (τ : Type) where
  /-- The name of the bearer. -/
  name : τ
  /-- The id of which the lock was asked for. -/
  id : String
  /-- The address of the lock. -/
  address : Nat
  deriving DecidableEq, Repr

/-- The locks by container id. -/
structure LockTable (τ : Type) where
  /-- The addresses of the locks by id. -/
  entries : Directory Nat
  /-- The locks by address. -/
  store : List (Lock τ)
  /-- The tickets that were not let go, the oldest first. -/
  tickets : List (Ticket τ)
  deriving DecidableEq, Repr

namespace LockTable

variable {τ : Type}

/-- The table without entries. -/
def empty : LockTable τ := ⟨[], [], []⟩

/-- The number of entries. -/
def active (table : LockTable τ) : Nat := table.entries.length

/-- The lock at an address. -/
def lockAt (table : LockTable τ) (address : Nat) : Lock τ :=
  (table.store[address]?).getD .unclaimed

/-- The name that the lock of an id belongs to. -/
def owner? (table : LockTable τ) (id : String) : Option τ :=
  (table.entries.find? id).bind fun address => (table.lockAt address).owner

/-- How many entries and tickets refer to the lock at an address. -/
def references (table : LockTable τ) (address : Nat) : Nat :=
  table.entries.countP (·.2 = address) + table.tickets.countP (·.address = address)

/-- The table with the lock at an address changed. -/
def change (table : LockTable τ) (address : Nat) (f : Lock τ → Lock τ) : LockTable τ :=
  { table with store := table.store.modify address f }

/-- The table with an entry for an id, made if there is none, and the address in it. -/
def enroll (table : LockTable τ) (id : String) : LockTable τ × Nat :=
  match table.entries.find? id with
  | some address => (table, address)
  | none =>
    let address := table.store.length
    let store := table.store ++ [.unclaimed]
    ({ table with entries := table.entries.put id address, store }, address)

/-- The table after a name asks for the lock of an id, and whether it holds it at once. -/
def acquire (table : LockTable τ) (id : String) (name : τ) : LockTable τ × Bool :=
  let (table, address) := table.enroll id
  let tickets := table.tickets ++ [⟨name, id, address⟩]
  ({ table with tickets }.change address (·.ask name), (table.lockAt address).isFree)

/-- The table without the entry of an id if nothing else refers to its lock. -/
def prune (table : LockTable τ) (id : String) : LockTable τ :=
  match table.entries.find? id with
  | some address =>
    if table.references address = 1 then { table with entries := table.entries.remove id }
    else table
  | none => table

variable [DecidableEq τ]

/-- The ticket with a name. -/
def ticket? (table : LockTable τ) (name : τ) : Option (Ticket τ) :=
  table.tickets.find? (·.name = name)

/-- The table without the ticket with a name. -/
def discard (table : LockTable τ) (name : τ) : LockTable τ :=
  { table with tickets := table.tickets.eraseP (·.name = name) }

/-- Whether the lock that a name asked for belongs to it. -/
def isOwner (table : LockTable τ) (name : τ) : Bool :=
  match table.ticket? name with
  | some ticket => (table.lockAt ticket.address).owner = some name
  | none => false

/-- The table after the holder of a lock lets it go. -/
def release (table : LockTable τ) (name : τ) : LockTable τ :=
  match table.ticket? name with
  | some ticket => ((table.change ticket.address Lock.handOver).discard name).prune ticket.id
  | none => table

/-- The table after one who waits for a lock gives up. -/
def abandon (table : LockTable τ) (name : τ) : LockTable τ :=
  match table.ticket? name with
  | some ticket => (table.change ticket.address (·.giveUp name)).discard name
  | none => table

end LockTable

end Dockmaster
