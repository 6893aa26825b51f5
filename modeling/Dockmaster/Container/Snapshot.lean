import Dockmaster.Docker.Records

/-!
# Snapshots

What is kept of a container before it is replaced: its settings, its host side, and its networks in
the order of their names. `createConfig` is the request for the replacement, and `reconnect` lists
the networks that it must be connected to afterwards.
-/

namespace Dockmaster

/-- What is kept of a container. -/
structure Snapshot where
  /-- The settings. -/
  settings : Settings
  /-- The host side. -/
  hostConfig : Option HostConfig
  /-- The networks, in increasing order of their names. -/
  networks : List Attachment
  deriving Inhabited

/-- The name of the network that the daemon connects a container to by default. -/
def defaultNetwork : String := "bridge"

/-- The settings without an empty user and an empty set of volumes, which is what the daemon tells
when there are none. -/
def Settings.dropEmpty (settings : Settings) : Settings :=
  { settings with
    user := settings.user.filter (· ≠ "")
    volumes := settings.volumes.filter (· ≠ []) }

namespace Snapshot

/-- The networks of a container in increasing order of their names. -/
def networksOf (info : InspectRecord) : List Attachment :=
  (info.networks.getD []).mergeSort fun a b => decide (a.network ≤ b.network)

/-- The snapshot of a container. -/
def capture (info : InspectRecord) : Snapshot where
  settings := (info.config.map (·.settings.dropEmpty)).getD {}
  hostConfig := info.hostConfig
  networks := networksOf info

/-- The request for a replacement that runs an image. -/
def createConfig (snapshot : Snapshot) (image : String) : CreateConfig where
  image := image
  settings := snapshot.settings
  hostConfig := snapshot.hostConfig

/-- The networks to connect a replacement to. The default network is left out if there are others:
the replacement is connected to it when it is created. -/
def reconnect (snapshot : Snapshot) : List Attachment :=
  if 1 < snapshot.networks.length then
    snapshot.networks.filter (·.network ≠ defaultNetwork)
  else snapshot.networks

end Snapshot

end Dockmaster
