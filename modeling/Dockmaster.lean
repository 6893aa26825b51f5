import Dockmaster.Text.Blank
import Dockmaster.Text.Segment
import Dockmaster.Text.Decimal
import Dockmaster.Text.Utf8
import Dockmaster.Text.Hex
import Dockmaster.Json.Basic
import Dockmaster.Json.Printer
import Dockmaster.Json.Parser
import Dockmaster.Json.Shape
import Dockmaster.Fault
import Dockmaster.Error
import Dockmaster.Container.Identity
import Dockmaster.Container.Summary
import Dockmaster.Guard
import Dockmaster.Image
import Dockmaster.Config
import Dockmaster.Docker.Shapes
import Dockmaster.Docker.Records
import Dockmaster.Container.Snapshot
import Dockmaster.Log.Line
import Dockmaster.Log.Feed
import Dockmaster.Log.Settings
import Dockmaster.Log.Stream
import Dockmaster.Log.History
import Dockmaster.Log.HandFed
import Dockmaster.Interchange
import Dockmaster.Endpoint
import Dockmaster.Directory
import Dockmaster.Lock.Table
import Dockmaster.Lock.Desk
import Dockmaster.Daemon.Request
import Dockmaster.Daemon.Scripted
import Dockmaster.Operation.Progress
import Dockmaster.Operation.Lifecycle
import Dockmaster.Operation.ImageCheck
import Dockmaster.Operation.Basic
import Dockmaster.Engine
import Dockmaster.Monitor.Ticker
import Dockmaster.Monitor.Shutdown
import Dockmaster.Monitor.Basic
import Dockmaster.Daemon.Metered
import Dockmaster.Rehearsal.Basic
import Dockmaster.Rehearsal.Run
import Dockmaster.Rehearsal.Cue
import Dockmaster.Http.Target
import Dockmaster.Http.Message
import Dockmaster.Docker.Lines
import Dockmaster.Docker.Progress
import Dockmaster.Docker.LogFraming
import Dockmaster.Docker.Api
import Dockmaster.Job
import Dockmaster.Daemon.Remote
import Dockmaster.Startup.EnvFile
import Dockmaster.Startup.Basic
import Dockmaster.Main
import Dockmaster.Proofs.Error
import Dockmaster.Proofs.Directory
import Dockmaster.Proofs.Guard
import Dockmaster.Proofs.Lock.Line
import Dockmaster.Proofs.Lock.Queues
import Dockmaster.Proofs.Lock.Fifo
import Dockmaster.Proofs.Lock.History
import Dockmaster.Proofs.Lock.Entries
import Dockmaster.Proofs.Text.Utf8
import Dockmaster.Proofs.Text.Blank
import Dockmaster.Proofs.Text.Decimal
import Dockmaster.Proofs.Text.Segment
import Dockmaster.Proofs.Json.Grammar
import Dockmaster.Proofs.Json.Literal
import Dockmaster.Proofs.Json.Reading
import Dockmaster.Proofs.Json.Writing
import Dockmaster.Proofs.Json.Record
import Dockmaster.Proofs.Json.Normal
import Dockmaster.Proofs.Interchange
import Dockmaster.Proofs.Container.CarryOver
import Dockmaster.Proofs.Container.Networks
import Dockmaster.Proofs.Engine.Step
import Dockmaster.Proofs.Engine.Run
import Dockmaster.Proofs.Engine.Locking
import Dockmaster.Proofs.Engine.Protection
import Dockmaster.Proofs.Engine.Exclusion
import Dockmaster.Proofs.World.Basic
import Dockmaster.Proofs.World.Flight
import Dockmaster.Proofs.World.Daemon
import Dockmaster.Proofs.World.Replacement
import Dockmaster.Proofs.Log.Session
import Dockmaster.Proofs.Log.Delivery
import Dockmaster.Proofs.Operation.Ending
import Dockmaster.Proofs.Operation.Plan
import Dockmaster.Proofs.Operation.Course
import Dockmaster.Proofs.Engine.Trace
import Dockmaster.Proofs.World.Ownership
import Dockmaster.Proofs.World.Residents
import Dockmaster.Proofs.World.Custody
import Dockmaster.Proofs.World.Breakage
import Dockmaster.Proofs.World.Window
import Dockmaster.Proofs.Log.Release
import Dockmaster.Proofs.Engine.Waiting
import Dockmaster.Proofs.Operation.Alone
import Dockmaster.Proofs.Operation.Spelling
import Dockmaster.Proofs.Operation.Sweep
import Dockmaster.Proofs.Operation.Stages
import Dockmaster.Proofs.Operation.Isolation
import Dockmaster.Proofs.Operation.Announcement
import Dockmaster.Proofs.Monitor.Schedule
import Dockmaster.Proofs.Monitor.Spacing
import Dockmaster.Proofs.Log.History
import Dockmaster.Proofs.Log.Agreement
import Dockmaster.Proofs.World.Dependable
import Dockmaster.Proofs.Operation.Renewal
import Dockmaster.Proofs.Image
import Dockmaster.Proofs.Config.Loading
import Dockmaster.Proofs.Config.Blacklist
import Dockmaster.Proofs.Log.Backpressure
import Dockmaster.Proofs.Log.Capacity
