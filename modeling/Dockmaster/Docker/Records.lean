import Dockmaster.Container.Summary
import Dockmaster.Container.Identity
import Dockmaster.Docker.Shapes

/-!
# What the daemon tells of containers and images

The records of the daemon that the service works with, cut down to what it uses, and their JSON
forms. A record is read only if the whole of it has its shape, the parts that are not used included.
The host side of a container and its health test are passed on as they are.
-/

namespace Dockmaster

open Json

/-! ### The parts of a record -/

/-- How a container is set up on its host, as the daemon writes it. -/
abbrev HostConfig := Json

/-- How the health of a container is tested, as the daemon writes it. -/
abbrev HealthCheck := Json

/-- The settings of a container that do not depend on its image or its host. -/
structure Settings where
  /-- The environment, each entry a name, an equals sign and a value. -/
  env : Option (List String) := none
  /-- The labels. -/
  labels : Option (List (String × String)) := none
  /-- The ports that the container offers. -/
  exposedPorts : Option (List String) := none
  /-- The arguments. -/
  cmd : Option (List String) := none
  /-- The program and its first arguments. -/
  entrypoint : Option (List String) := none
  /-- The directory in which the program starts. -/
  workingDir : Option String := none
  /-- The user as whom the program runs. -/
  user : Option String := none
  /-- The places where volumes are mounted. -/
  volumes : Option (List String) := none
  /-- The health test. -/
  healthcheck : Option HealthCheck := none
  deriving Inhabited

/-- What a container runs. -/
structure ContainerConfig where
  /-- The image reference. -/
  image : Option String := none
  /-- The settings. -/
  settings : Settings := {}
  deriving Inhabited

/-- A network and the aliases that a container has in it. -/
structure Attachment where
  /-- The name of the network. -/
  network : String
  /-- The aliases, if any are told. -/
  aliases : Option (List String)
  deriving DecidableEq, Repr

/-- What the daemon tells of one container. -/
structure InspectRecord where
  /-- The full id. -/
  id : Option String := none
  /-- The name, with its leading slash. -/
  name : Option String := none
  /-- What the container runs. -/
  config : Option ContainerConfig := none
  /-- Its host side. -/
  hostConfig : Option HostConfig := none
  /-- Its networks, in whatever order they are told. -/
  networks : Option (List Attachment) := none
  deriving Inhabited

/-- One container in the list that the daemon gives. -/
structure ListingRecord where
  /-- The full id. -/
  id : Option String := none
  /-- The names, with their leading slashes. -/
  names : Option (List String) := none
  /-- The image reference. -/
  image : Option String := none
  /-- The state in one word. -/
  state : Option String := none
  /-- The state in more words. -/
  status : Option String := none
  deriving Inhabited

/-- What the daemon is asked to create. -/
structure CreateConfig where
  /-- The image reference. -/
  image : String
  /-- The settings. -/
  settings : Settings
  /-- The host side. -/
  hostConfig : Option HostConfig
  deriving Inhabited

/-! ### Reading -/

/-- A list of texts in a field. -/
def textsOf? (name : String) (record : Json) : Option (List String) :=
  (record.member? name).bind asTexts?

/-- A text in a field. -/
def textOf? (name : String) (record : Json) : Option String :=
  (record.member? name).bind asText?

/-- The names of the members of an object in a field. -/
def namesOf? (name : String) (record : Json) : Option (List String) :=
  ((record.member? name).bind asMembers?).map fun members => members.map (·.1)

/-- The texts by name in a field. -/
def textMapOf? (name : String) (record : Json) : Option (List (String × String)) :=
  ((record.member? name).bind asMembers?).map fun members =>
    members.filterMap fun member => member.2.asText?.map fun value => (member.1, value)

/-- The settings in a normal record. -/
def Settings.ofRecord (record : Json) : Settings where
  env := textsOf? "Env" record
  labels := textMapOf? "Labels" record
  exposedPorts := namesOf? "ExposedPorts" record
  cmd := textsOf? "Cmd" record
  entrypoint := textsOf? "Entrypoint" record
  workingDir := textOf? "WorkingDir" record
  user := textOf? "User" record
  volumes := namesOf? "Volumes" record
  healthcheck := record.member? "Healthcheck"

/-- What a container runs, from a normal record. -/
def ContainerConfig.ofRecord (record : Json) : ContainerConfig where
  image := textOf? "Image" record
  settings := .ofRecord record

/-- The networks in a normal record. -/
def attachmentsOf? (record : Json) : Option (List Attachment) :=
  ((record.member? "Networks").bind asMembers?).map fun members =>
    members.map fun member => ⟨member.1, textsOf? "Aliases" member.2⟩

/-- What the daemon tells of one container. -/
def InspectRecord.ofJson? (value : Json) : Option InspectRecord := do
  let record ← Docker.Shapes.container.read value
  return {
    id := textOf? "Id" record
    name := textOf? "Name" record
    config := (record.member? "Config").map .ofRecord
    hostConfig := record.member? "HostConfig"
    networks := (record.member? "NetworkSettings").bind attachmentsOf? }

/-- One container in a list, from a normal record. -/
def ListingRecord.ofRecord (record : Json) : ListingRecord where
  id := textOf? "Id" record
  names := textsOf? "Names" record
  image := textOf? "Image" record
  state := textOf? "State" record
  status := textOf? "Status" record

/-- One container in a list. -/
def ListingRecord.ofJson? (value : Json) : Option ListingRecord :=
  (Docker.Shapes.listedContainer.read value).map .ofRecord

/-- The containers in a list. -/
def ListingRecord.listOfJson? (value : Json) : Option (List ListingRecord) := do
  let records ← (Shape.list Docker.Shapes.listedContainer).read value
  return (records.asArray?.getD []).map .ofRecord

/-- The ids of the images in a list. -/
def imageIdsOfJson? (value : Json) : Option (List String) := do
  let records ← (Shape.list Docker.Shapes.image).read value
  return (records.asArray?.getD []).filterMap (textOf? "Id")

/-- The id of a container that was created. -/
def createdIdOfJson? (value : Json) : Option String := do
  textOf? "Id" (← Docker.Shapes.createdContainer.read value)

/-! ### Writing -/

/-- Names as an object whose members are empty objects. -/
def nameSetJson (names : List String) : Json :=
  .ofMembers (names.map fun name => (name, .object []))

/-- Texts by name as an object. -/
def textMapJson (entries : List (String × String)) : Json :=
  .ofMembers (entries.map fun entry => (entry.1, .text entry.2))

/-- What the daemon is asked to create, without the fields that are absent. -/
def CreateConfig.toJson (config : CreateConfig) : Json :=
  .ofPresent [
    ("User", config.settings.user.map .text),
    ("ExposedPorts", config.settings.exposedPorts.map nameSetJson),
    ("Env", config.settings.env.map .texts),
    ("Cmd", config.settings.cmd.map .texts),
    ("Healthcheck", config.settings.healthcheck),
    ("Image", some (.text config.image)),
    ("Volumes", config.settings.volumes.map nameSetJson),
    ("WorkingDir", config.settings.workingDir.map .text),
    ("Entrypoint", config.settings.entrypoint.map .texts),
    ("Labels", config.settings.labels.map textMapJson),
    ("HostConfig", config.hostConfig)]

/-! ### Identity and summary -/

/-- The identity of a container that a caller named in some way. -/
def InspectRecord.identity (info : InspectRecord) (reference : String) : Identity :=
  .ofDaemon reference (info.name.getD "") ((info.config.bind (·.image)).getD "")

/-- The summary of a listed container: the first of its names counts, and what is not told is
empty. -/
def ListingRecord.summary (record : ListingRecord) : Summary where
  id := record.id.getD ""
  name := ((record.names.bind List.head?).map stripSlash).getD ""
  image := record.image.getD ""
  state := record.state.getD ""
  status := record.status.getD ""

end Dockmaster
