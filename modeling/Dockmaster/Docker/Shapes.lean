import Dockmaster.Json.Shape

/-!
# Records of the Docker interface

The shapes of the JSON records that the container daemon sends. Almost every field may be absent.
The fields stand in the order of their declaration, which matters where a record is sent as an
array.
-/

namespace Dockmaster.Docker.Shapes

open Json

/-- The integers of 64 bits. -/
def int64 : Shape := .integer (-9223372036854775808) 9223372036854775807

/-- The sizes, which are integers of 64 bits without a sign. -/
def size : Shape := .integer 0 18446744073709551615

/-- An address of a network endpoint. -/
def address : Shape := .record [
  ("Addr", .optional .text),
  ("PrefixLen", .optional int64)]

/-- Where on the host one of the ports of a container is bound. -/
def portBinding : Shape := .record [
  ("HostIp", .optional .text),
  ("HostPort", .optional .text)]

/-- The bindings of the ports of a container; those without bindings may have null. -/
def portMap : Shape := .dict (.optional (.list portBinding))

/-- A set of names, each with an object without members. -/
def nameSet : Shape := .dict .hollow

/-- The kinds of mounts. -/
def mountKind : Shape := .choice ["", "bind", "volume", "tmpfs", "npipe", "cluster"]

/-- The addresses that an endpoint asks for. -/
def ipamConfig : Shape := .record [
  ("IPv4Address", .optional .text),
  ("IPv6Address", .optional .text),
  ("LinkLocalIPs", .optional (.list .text))]

/-- The connection of a container to one network. -/
def endpoint : Shape := .record [
  ("IPAMConfig", .optional ipamConfig),
  ("Links", .optional (.list .text)),
  ("MacAddress", .optional .text),
  ("Aliases", .optional (.list .text)),
  ("DriverOpts", .optional (.dict .text)),
  ("NetworkID", .optional .text),
  ("EndpointID", .optional .text),
  ("Gateway", .optional .text),
  ("IPAddress", .optional .text),
  ("IPPrefixLen", .optional int64),
  ("IPv6Gateway", .optional .text),
  ("GlobalIPv6Address", .optional .text),
  ("GlobalIPv6PrefixLen", .optional int64),
  ("DNSNames", .optional (.list .text))]

/-- The networks of a container. -/
def networkSettings : Shape := .record [
  ("Bridge", .optional .text),
  ("SandboxID", .optional .text),
  ("HairpinMode", .optional .flag),
  ("LinkLocalIPv6Address", .optional .text),
  ("LinkLocalIPv6PrefixLen", .optional int64),
  ("Ports", .optional portMap),
  ("SandboxKey", .optional .text),
  ("SecondaryIPAddresses", .optional (.list address)),
  ("SecondaryIPv6Addresses", .optional (.list address)),
  ("EndpointID", .optional .text),
  ("Gateway", .optional .text),
  ("GlobalIPv6Address", .optional .text),
  ("GlobalIPv6PrefixLen", .optional int64),
  ("IPAddress", .optional .text),
  ("IPPrefixLen", .optional int64),
  ("IPv6Gateway", .optional .text),
  ("MacAddress", .optional .text),
  ("Networks", .optional (.dict endpoint))]

/-- How the health of a container is tested. -/
def healthCheck : Shape := .record [
  ("Test", .optional (.list .text)),
  ("Interval", .optional int64),
  ("Timeout", .optional int64),
  ("Retries", .optional int64),
  ("StartPeriod", .optional int64),
  ("StartInterval", .optional int64)]

/-- What a container runs. -/
def containerConfig : Shape := .record [
  ("Hostname", .optional .text),
  ("Domainname", .optional .text),
  ("User", .optional .text),
  ("AttachStdin", .optional .flag),
  ("AttachStdout", .optional .flag),
  ("AttachStderr", .optional .flag),
  ("ExposedPorts", .optional nameSet),
  ("Tty", .optional .flag),
  ("OpenStdin", .optional .flag),
  ("StdinOnce", .optional .flag),
  ("Env", .optional (.list .text)),
  ("Cmd", .optional (.list .text)),
  ("Healthcheck", .optional healthCheck),
  ("ArgsEscaped", .optional .flag),
  ("Image", .optional .text),
  ("Volumes", .optional nameSet),
  ("WorkingDir", .optional .text),
  ("Entrypoint", .optional (.list .text)),
  ("NetworkDisabled", .optional .flag),
  ("MacAddress", .optional .text),
  ("OnBuild", .optional (.list .text)),
  ("Labels", .optional (.dict .text)),
  ("StopSignal", .optional .text),
  ("StopTimeout", .optional int64),
  ("Shell", .optional (.list .text))]

/-- The weight of a block device. -/
def weightDevice : Shape := .record [
  ("Path", .optional .text),
  ("Weight", .optional size)]

/-- The rate limit of a block device. -/
def throttleDevice : Shape := .record [
  ("Path", .optional .text),
  ("Rate", .optional int64)]

/-- A device of the host inside a container. -/
def deviceMapping : Shape := .record [
  ("PathOnHost", .optional .text),
  ("PathInContainer", .optional .text),
  ("CgroupPermissions", .optional .text)]

/-- A request for devices. -/
def deviceRequest : Shape := .record [
  ("Driver", .optional .text),
  ("Count", .optional int64),
  ("DeviceIDs", .optional (.list .text)),
  ("Capabilities", .optional (.list (.list .text))),
  ("Options", .optional (.dict .text))]

/-- A resource limit. -/
def ulimit : Shape := .record [
  ("Name", .optional .text),
  ("Soft", .optional int64),
  ("Hard", .optional int64)]

/-- Where the output of a container goes. -/
def logConfig : Shape := .record [
  ("Type", .optional .text),
  ("Config", .optional (.dict .text))]

/-- When a container is restarted. -/
def restartPolicy : Shape := .record [
  ("Name", .optional (.choice ["", "no", "always", "unless-stopped", "on-failure"])),
  ("MaximumRetryCount", .optional int64)]

/-- A driver and its options. -/
def driver : Shape := .record [
  ("Name", .optional .text),
  ("Options", .optional (.dict .text))]

/-- The options of a bind mount. -/
def bindOptions : Shape := .record [
  ("Propagation", .optional
    (.choice ["", "private", "rprivate", "shared", "rshared", "slave", "rslave"])),
  ("NonRecursive", .optional .flag),
  ("CreateMountpoint", .optional .flag),
  ("ReadOnlyNonRecursive", .optional .flag),
  ("ReadOnlyForceRecursive", .optional .flag)]

/-- The options of a volume mount. -/
def volumeOptions : Shape := .record [
  ("NoCopy", .optional .flag),
  ("Labels", .optional (.dict .text)),
  ("DriverConfig", .optional driver),
  ("Subpath", .optional .text)]

/-- The options of a mount in memory. -/
def tmpfsOptions : Shape := .record [
  ("SizeBytes", .optional int64),
  ("Mode", .optional int64),
  ("Options", .optional (.list (.list .text)))]

/-- A mount that a container asks for. -/
def mount : Shape := .record [
  ("Target", .optional .text),
  ("Source", .optional .text),
  ("Type", .optional mountKind),
  ("ReadOnly", .optional .flag),
  ("Consistency", .optional .text),
  ("BindOptions", .optional bindOptions),
  ("VolumeOptions", .optional volumeOptions),
  ("TmpfsOptions", .optional tmpfsOptions)]

/-- How a container is set up on its host. -/
def hostConfig : Shape := .record [
  ("CpuShares", .optional int64),
  ("Memory", .optional int64),
  ("CgroupParent", .optional .text),
  ("BlkioWeight", .optional (.integer 0 65535)),
  ("BlkioWeightDevice", .optional (.list weightDevice)),
  ("BlkioDeviceReadBps", .optional (.list throttleDevice)),
  ("BlkioDeviceWriteBps", .optional (.list throttleDevice)),
  ("BlkioDeviceReadIOps", .optional (.list throttleDevice)),
  ("BlkioDeviceWriteIOps", .optional (.list throttleDevice)),
  ("CpuPeriod", .optional int64),
  ("CpuQuota", .optional int64),
  ("CpuRealtimePeriod", .optional int64),
  ("CpuRealtimeRuntime", .optional int64),
  ("CpusetCpus", .optional .text),
  ("CpusetMems", .optional .text),
  ("Devices", .optional (.list deviceMapping)),
  ("DeviceCgroupRules", .optional (.list .text)),
  ("DeviceRequests", .optional (.list deviceRequest)),
  ("KernelMemoryTCP", .optional int64),
  ("MemoryReservation", .optional int64),
  ("MemorySwap", .optional int64),
  ("MemorySwappiness", .optional int64),
  ("NanoCpus", .optional int64),
  ("OomKillDisable", .optional .flag),
  ("Init", .optional .flag),
  ("PidsLimit", .optional int64),
  ("Ulimits", .optional (.list ulimit)),
  ("CpuCount", .optional int64),
  ("CpuPercent", .optional int64),
  ("IOMaximumIOps", .optional int64),
  ("IOMaximumBandwidth", .optional int64),
  ("Binds", .optional (.list .text)),
  ("ContainerIDFile", .optional .text),
  ("LogConfig", .optional logConfig),
  ("NetworkMode", .optional .text),
  ("PortBindings", .optional portMap),
  ("RestartPolicy", .optional restartPolicy),
  ("AutoRemove", .optional .flag),
  ("VolumeDriver", .optional .text),
  ("VolumesFrom", .optional (.list .text)),
  ("Mounts", .optional (.list mount)),
  ("ConsoleSize", .optional (.list (.integer (-2147483648) 2147483647))),
  ("Annotations", .optional (.dict .text)),
  ("CapAdd", .optional (.list .text)),
  ("CapDrop", .optional (.list .text)),
  ("CgroupnsMode", .optional (.choice ["", "private", "host"])),
  ("Dns", .optional (.list .text)),
  ("DnsOptions", .optional (.list .text)),
  ("DnsSearch", .optional (.list .text)),
  ("ExtraHosts", .optional (.list .text)),
  ("GroupAdd", .optional (.list .text)),
  ("IpcMode", .optional .text),
  ("Cgroup", .optional .text),
  ("Links", .optional (.list .text)),
  ("OomScoreAdj", .optional int64),
  ("PidMode", .optional .text),
  ("Privileged", .optional .flag),
  ("PublishAllPorts", .optional .flag),
  ("ReadonlyRootfs", .optional .flag),
  ("SecurityOpt", .optional (.list .text)),
  ("StorageOpt", .optional (.dict .text)),
  ("Tmpfs", .optional (.dict .text)),
  ("UTSMode", .optional .text),
  ("UsernsMode", .optional .text),
  ("ShmSize", .optional int64),
  ("Sysctls", .optional (.dict .text)),
  ("Runtime", .optional .text),
  ("Isolation", .optional (.choice ["", "default", "process", "hyperv"])),
  ("MaskedPaths", .optional (.list .text)),
  ("ReadonlyPaths", .optional (.list .text))]

/-- The outcome of one health test. -/
def healthResult : Shape := .record [
  ("Start", .optional .text),
  ("End", .optional .text),
  ("ExitCode", .optional int64),
  ("Output", .optional .text)]

/-- The health of a container. -/
def health : Shape := .record [
  ("Status", .optional (.choice ["", "none", "starting", "healthy", "unhealthy"])),
  ("FailingStreak", .optional int64),
  ("Log", .optional (.list healthResult))]

/-- The state of a container. -/
def containerState : Shape := .record [
  ("Status", .optional (.choice ["", "created", "running", "paused", "restarting", "removing",
    "exited", "dead"])),
  ("Running", .optional .flag),
  ("Paused", .optional .flag),
  ("Restarting", .optional .flag),
  ("OOMKilled", .optional .flag),
  ("Dead", .optional .flag),
  ("Pid", .optional int64),
  ("ExitCode", .optional int64),
  ("Error", .optional .text),
  ("StartedAt", .optional .text),
  ("FinishedAt", .optional .text),
  ("Health", .optional health)]

/-- The storage of a container. -/
def graphDriver : Shape := .record [
  ("Name", .text),
  ("Data", .dict .text)]

/-- A mount of a container. -/
def mountPoint : Shape := .record [
  ("Type", .optional mountKind),
  ("Name", .optional .text),
  ("Source", .optional .text),
  ("Destination", .optional .text),
  ("Driver", .optional .text),
  ("Mode", .optional .text),
  ("RW", .optional .flag),
  ("Propagation", .optional .text)]

/-- All that the daemon tells of one container. -/
def container : Shape := .record [
  ("Id", .optional .text),
  ("Created", .optional .text),
  ("Path", .optional .text),
  ("Args", .optional (.list .text)),
  ("State", .optional containerState),
  ("Image", .optional .text),
  ("ResolvConfPath", .optional .text),
  ("HostnamePath", .optional .text),
  ("HostsPath", .optional .text),
  ("LogPath", .optional .text),
  ("Name", .optional .text),
  ("RestartCount", .optional int64),
  ("Driver", .optional .text),
  ("Platform", .optional .text),
  ("MountLabel", .optional .text),
  ("ProcessLabel", .optional .text),
  ("AppArmorProfile", .optional .text),
  ("ExecIDs", .optional (.list .text)),
  ("HostConfig", .optional hostConfig),
  ("GraphDriver", .optional graphDriver),
  ("SizeRw", .optional int64),
  ("SizeRootFs", .optional int64),
  ("Mounts", .optional (.list mountPoint)),
  ("Config", .optional containerConfig),
  ("NetworkSettings", .optional networkSettings)]

/-- One of the ports of a listed container. -/
def listedPort : Shape := .record [
  ("IP", .optional .text),
  ("PrivatePort", .integer 0 65535),
  ("PublicPort", .optional (.integer 0 65535)),
  ("Type", .optional (.choice ["", "tcp", "udp", "sctp"]))]

/-- The host side of a listed container. -/
def listedHost : Shape := .record [
  ("NetworkMode", .optional .text),
  ("Annotations", .optional (.dict .text))]

/-- The networks of a listed container. -/
def listedNetworks : Shape := .record [
  ("Networks", .optional (.dict endpoint))]

/-- One container in the list that the daemon gives. -/
def listedContainer : Shape := .record [
  ("Id", .optional .text),
  ("Names", .optional (.list .text)),
  ("Image", .optional .text),
  ("ImageID", .optional .text),
  ("Command", .optional .text),
  ("Created", .optional int64),
  ("Ports", .optional (.list listedPort)),
  ("SizeRw", .optional int64),
  ("SizeRootFs", .optional int64),
  ("Labels", .optional (.dict .text)),
  ("State", .optional .text),
  ("Status", .optional .text),
  ("HostConfig", .optional listedHost),
  ("NetworkSettings", .optional listedNetworks),
  ("Mounts", .optional (.list mountPoint))]

/-- One image in the list that the daemon gives. -/
def image : Shape := .record [
  ("Id", .text),
  ("ParentId", .text),
  ("RepoTags", .nullable (.list .text)),
  ("RepoDigests", .nullable (.list .text)),
  ("Created", int64),
  ("Size", int64),
  ("SharedSize", int64),
  ("VirtualSize", .optional int64),
  ("Labels", .nullable (.dict .text)),
  ("Containers", int64)]

/-- What the daemon answers to the creation of a container. -/
def createdContainer : Shape := .record [
  ("Id", .text),
  ("Warnings", .nullable (.list .text))]

/-- The details of an error in a stream of progress records. -/
def errorDetail : Shape := .record [
  ("code", .optional int64),
  ("message", .optional .text)]

/-- How far a transfer has come. -/
def progressDetail : Shape := .record [
  ("current", .optional int64),
  ("total", .optional int64)]

/-- A progress record of pulling an image. -/
def pullProgress : Shape := .record [
  ("id", .optional .text),
  ("error", .optional .text),
  ("errorDetail", .optional errorDetail),
  ("status", .optional .text),
  ("progress", .optional .text),
  ("progressDetail", .optional progressDetail)]

/-- The platform of the daemon. -/
def platform : Shape := .record [
  ("Name", .text)]

/-- A part of the daemon. -/
def component : Shape := .record [
  ("Name", .text),
  ("Version", .text),
  ("Details", .optional (.dict .text))]

/-- What the daemon tells of itself. -/
def version : Shape := .record [
  ("Platform", .optional platform),
  ("Components", .optional (.list component)),
  ("Version", .optional .text),
  ("ApiVersion", .optional .text),
  ("MinAPIVersion", .optional .text),
  ("GitCommit", .optional .text),
  ("GoVersion", .optional .text),
  ("Os", .optional .text),
  ("Arch", .optional .text),
  ("KernelVersion", .optional .text),
  ("Experimental", .optional .flag),
  ("BuildTime", .optional .text)]

/-- The body of an answer that reports a failure. -/
def failure : Shape := .record [
  ("message", .text)]

end Dockmaster.Docker.Shapes
