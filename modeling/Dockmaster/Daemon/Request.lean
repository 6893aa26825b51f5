import Dockmaster.Docker.Records
import Dockmaster.Fault

/-!
# Requests to the daemon

What the service asks of the container daemon, and what the daemon gives back for each request when
it does not fail.
-/

namespace Dockmaster

/-- A request to the daemon. A container is named by a reference: its id, its name, or the beginning
of its id. -/
inductive Request where
  /-- List the running containers, or all of them. -/
  | list (all : Bool)
  /-- Tell all about a container. -/
  | inspect (reference : String)
  /-- List the local images that an image reference names. -/
  | listImages (image : String)
  /-- Fetch an image from its registry. -/
  | pull (image : String)
  /-- Stop a container, by force after some seconds. -/
  | stop (reference : String) (grace : Nat)
  /-- Stop a container, by force after some seconds, and start it again. -/
  | restart (reference : String) (grace : Nat)
  /-- Remove a container, even a running one if forced. -/
  | remove (reference : String) (force : Bool)
  /-- Create a container under a name. -/
  | create (name : String) (config : CreateConfig)
  /-- Start a container. -/
  | start (reference : String)
  /-- Connect a container to a network. -/
  | connect (network container : String) (aliases : Option (List String))

namespace Request

/-- What the daemon gives back for a request. Of images only the ids count. -/
@[reducible]
def Reply : Request → Type
  | .list _ => List ListingRecord
  | .inspect _ => InspectRecord
  | .listImages _ => List String
  | .pull _ => Unit
  | .stop _ _ => Unit
  | .restart _ _ => Unit
  | .remove _ _ => Unit
  | .create _ _ => String
  | .start _ => Unit
  | .connect _ _ _ => Unit

/-- The kind of a request. -/
def kind : Request → String
  | .list _ => "list"
  | .inspect _ => "inspect"
  | .listImages _ => "list_images"
  | .pull _ => "pull"
  | .stop _ _ => "stop"
  | .restart _ _ => "restart"
  | .remove _ _ => "remove"
  | .create _ _ => "create"
  | .start _ => "start"
  | .connect _ _ _ => "connect"

/-- What a request is about: a container, an image, a name or a network. -/
def subject : Request → String
  | .list _ => ""
  | .inspect reference => reference
  | .listImages image => image
  | .pull image => image
  | .stop reference _ => reference
  | .restart reference _ => reference
  | .remove reference _ => reference
  | .create name _ => name
  | .start reference => reference
  | .connect network _ _ => network

/-- Whether a key names a request, by its kind alone or by its kind, a colon and its subject. -/
def matchesKey (request : Request) (key : String) : Bool :=
  key = request.kind || key = request.kind ++ ":" ++ request.subject

end Request

/-- The answer to a request. -/
abbrev Answer (request : Request) := Except DaemonFault request.Reply

/-- An answer for every request that might be made. -/
abbrev Answers := (request : Request) → Answer request

end Dockmaster
