import Dockmaster.Daemon.Request
import Dockmaster.Directory

/-!
# A daemon in memory

A container daemon that keeps its containers and images in memory and fails when it is told to. It
serves one request at a time: `serve` looks for a planned failure first, and only a request for
which there is none takes effect. A request that fails, whether planned or not, leaves the
containers and the images as they were.

A reference names a container by its key, by its name, or by a beginning of its key that no other
key has, in this order.
-/

namespace Dockmaster

/-- What the list of containers tells of one of them in place of what is true. The inner option is
the field as it is told, so that a field can also be left out. -/
structure ListingOverride where
  /-- The names. -/
  names : Option (Option (List String)) := none
  /-- The image reference. -/
  image : Option (Option String) := none
  /-- The state in one word. -/
  state : Option (Option String) := none
  /-- The state in more words. -/
  status : Option (Option String) := none

/-- A container of the daemon. -/
structure Resident where
  /-- What the daemon tells of it. -/
  info : InspectRecord
  /-- Whether it runs. -/
  running : Bool
  /-- How its entry in the list differs. -/
  listed : ListingOverride := {}

/-- A failure that is planned for some requests. -/
structure PlannedFailure where
  /-- The requests that it is meant for. -/
  key : String
  /-- The failure. -/
  fault : DaemonFault
  /-- How many of the requests are let through first. -/
  skip : Nat
  /-- How many of the requests fail then, if not all. -/
  times : Option Nat

/-- A daemon in memory. -/
structure ScriptedDaemon where
  /-- The containers by key. -/
  residents : Directory Resident := []
  /-- The ids of the local images by reference. -/
  localImages : Directory (List String) := []
  /-- The ids of the images in the registry by reference. -/
  registryImages : Directory (List String) := []
  /-- The ids for the next containers. -/
  nextIds : List String := []
  /-- The planned failures. -/
  failures : List PlannedFailure := []

/-! ### Containers -/

namespace Resident

/-- The entry of a container in the list. -/
def listing (key : String) (resident : Resident) : ListingRecord where
  id := some key
  names := resident.listed.names.getD (resident.info.name.map ([·]))
  image := resident.listed.image.getD (resident.info.config.bind (·.image))
  state := resident.listed.state.getD (some (if resident.running then "running" else "exited"))
  status := resident.listed.status.getD
    (some (if resident.running then "Up 1 minute" else "Exited (0)"))

/-- The container that a request for a new one describes. It has no networks and does not run. -/
def created (id name : String) (config : CreateConfig) : Resident where
  info := {
    id := some id
    name := some ("/" ++ name)
    config := some ⟨some config.image, config.settings⟩
    hostConfig := config.hostConfig }
  running := false

/-- The container connected to a network, in place of an older connection to it. -/
def connected (resident : Resident) (attachment : Attachment) : Resident :=
  let others := (resident.info.networks.getD []).filter (·.network ≠ attachment.network)
  { resident with info := { resident.info with networks := some (others ++ [attachment]) } }

end Resident

/-! ### Planned failures -/

namespace PlannedFailure

/-- Whether a failure is meant for a request and not used up. -/
def concerns (failure : PlannedFailure) (request : Request) : Bool :=
  request.matchesKey failure.key && failure.times ≠ some 0

/-- The failure of a request, if there is one, and the plan afterwards. A failure that lets the
request through leaves it to the later ones. -/
def find (request : Request) : List PlannedFailure → List PlannedFailure × Option DaemonFault
  | [] => ([], none)
  | failure :: rest =>
    if failure.concerns request then
      match failure.skip with
      | 0 => ({ failure with times := failure.times.map (· - 1) } :: rest, some failure.fault)
      | skip + 1 =>
        let (rest, fault) := find request rest
        ({ failure with skip } :: rest, fault)
    else
      let (rest, fault) := find request rest
      (failure :: rest, fault)

end PlannedFailure

/-! ### Requests -/

namespace ScriptedDaemon

/-- The key of the container that a reference names. -/
def resolve? (daemon : ScriptedDaemon) (reference : String) : Option String :=
  if (daemon.residents.find? reference).isSome then some reference
  else
    match List.find? (fun entry => entry.2.info.name = some ("/" ++ reference))
        daemon.residents with
    | some (key, _) => some key
    | none =>
      match daemon.residents.filter fun entry =>
          reference ≠ "" && reference.toList.isPrefixOf entry.1.toList with
      | [(key, _)] => some key
      | _ => none

/-- The failure of a request for a container that does not exist. -/
def noSuchContainer (reference : String) : DaemonFault :=
  .response 404 ("No such container: " ++ reference)

/-- The container that a reference names, with its key. -/
def lookup (daemon : ScriptedDaemon) (reference : String) :
    Except DaemonFault (String × Resident) :=
  match daemon.resolve? reference with
  | some key =>
    match daemon.residents.find? key with
    | some resident => .ok (key, resident)
    | none => .error (noSuchContainer reference)
  | none => .error (noSuchContainer reference)

/-- The daemon with a container under a key. -/
def put (daemon : ScriptedDaemon) (key : String) (resident : Resident) : ScriptedDaemon :=
  { daemon with residents := daemon.residents.put key resident }

/-- The daemon after a container was changed, if the reference names one and the change is
possible. -/
def change (daemon : ScriptedDaemon) (reference : String)
    (f : Resident → Except DaemonFault Resident) : ScriptedDaemon × Except DaemonFault Unit :=
  match daemon.lookup reference with
  | .ok (key, resident) =>
    match f resident with
    | .ok resident => (daemon.put key resident, .ok ())
    | .error fault => (daemon, .error fault)
  | .error fault => (daemon, .error fault)

/-- Whether a container has a name. -/
def hasName (daemon : ScriptedDaemon) (name : String) : Bool :=
  daemon.residents.any fun entry => entry.2.info.name = some ("/" ++ name)

/-- The id of the next container, and the ids left. -/
def freshId (daemon : ScriptedDaemon) : String × List String :=
  match daemon.nextIds with
  | id :: rest => (id, rest)
  | [] => ("new-" ++ toString daemon.residents.length, [])

/-- The local images after an image is pulled. A reference that the registry does not have changes
nothing. -/
def pulled (daemon : ScriptedDaemon) (image : String) : Directory (List String) :=
  match daemon.registryImages.find? image with
  | some ids => daemon.localImages.put image ids
  | none => daemon.localImages

/-- The effect of a request and the answer to it. -/
def execute (daemon : ScriptedDaemon) : (request : Request) → ScriptedDaemon × Answer request
  | .list all =>
    let shown := daemon.residents.filter fun entry => all || entry.2.running
    (daemon, .ok (shown.map fun entry => entry.2.listing entry.1))
  | .inspect reference => (daemon, (daemon.lookup reference).map (·.2.info))
  | .listImages image => (daemon, .ok ((daemon.localImages.find? image).getD []))
  | .pull image => ({ daemon with localImages := daemon.pulled image }, .ok ())
  | .stop reference _ =>
    daemon.change reference fun resident =>
      if resident.running then .ok { resident with running := false }
      else .error (.response 304 "")
  | .restart reference _ =>
    daemon.change reference fun resident => .ok { resident with running := true }
  | .remove reference force =>
    match daemon.lookup reference with
    | .ok (key, resident) =>
      if resident.running && !force then
        (daemon, .error (.response 409 "cannot remove a running container"))
      else ({ daemon with residents := daemon.residents.remove key }, .ok ())
    | .error fault => (daemon, .error fault)
  | .create name config =>
    if daemon.hasName name then
      (daemon, .error (.response 409 ("name " ++ name ++ " is already in use")))
    else
      let (id, nextIds) := daemon.freshId
      ({ daemon with nextIds }.put id (.created id name config), .ok id)
  | .start reference =>
    daemon.change reference fun resident => .ok { resident with running := true }
  | .connect network container aliases =>
    daemon.change container fun resident => .ok (resident.connected ⟨network, aliases⟩)

/-- Serves a request, unless it fails as planned. -/
def serve (daemon : ScriptedDaemon) (request : Request) : ScriptedDaemon × Answer request :=
  match PlannedFailure.find request daemon.failures with
  | (failures, some fault) => ({ daemon with failures }, .error fault)
  | (failures, none) => { daemon with failures }.execute request

end ScriptedDaemon

end Dockmaster
