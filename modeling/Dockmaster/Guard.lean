import Dockmaster.Container.Identity

/-!
# Protected containers

A guard holds the entries of the list of protected containers and refuses every container of which
the id, the name or the image is one of them. Entries are compared exactly.
-/

namespace Dockmaster

/-- Whether one of the entries is the id, the name or the image of a container. -/
def isProtected (identity : Identity) (entries : List String) : Bool :=
  entries.any fun entry =>
    entry = identity.id || entry = identity.name || entry = identity.image

/-- The entries in increasing order and without repetition. -/
def sortedSet (entries : List String) : List String :=
  (entries.mergeSort fun a b => decide (a ≤ b)).eraseDups

/-- The list of protected containers. -/
structure Guard where
  /-- The entries, in increasing order and without repetition. -/
  entries : List String
  deriving DecidableEq, Repr

namespace Guard

/-- The guard with some entries. -/
def ofList (entries : List String) : Guard := ⟨sortedSet entries⟩

/-- Whether a container is protected. -/
def protects (guard : Guard) (identity : Identity) : Bool :=
  isProtected identity guard.entries

/-- Whether nothing is protected. -/
def isEmpty (guard : Guard) : Bool := guard.entries.isEmpty

end Guard

end Dockmaster
