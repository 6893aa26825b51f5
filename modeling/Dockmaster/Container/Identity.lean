/-!
# The identity of a container

The three texts by which a container may be named in a list of protected containers: its id, its
name without the slash that the daemon puts in front, and its image.
-/

namespace Dockmaster

/-- A name without the one slash that it may begin with. -/
def stripSlash (name : String) : String :=
  match name.toList with
  | '/' :: rest => String.ofList rest
  | _ => name

/-- What identifies a container. -/
structure Identity where
  /-- The id, or what the caller named the container by. -/
  id : String
  /-- The name without a leading slash. -/
  name : String
  /-- The image reference. -/
  image : String
  deriving DecidableEq, Repr

/-- The identity of a container whose name may still have its leading slash. -/
def Identity.ofDaemon (id name image : String) : Identity :=
  ⟨id, stripSlash name, image⟩

end Dockmaster
