import Dockmaster.Fault

/-!
# Errors of the service

What an operation on containers reports when it fails. A failed update wraps the failure of the step
that it got to; `root` looks through any number of such wrappers. `ofFault` sorts the failures of
the daemon by what a caller can do about them.
-/

namespace Dockmaster

/-! ### The steps of an update -/

/-- The steps of an update, in the order in which they are taken. -/
inductive UpdateStage where
  /-- The container is looked up. -/
  | inspect
  /-- Its image is pulled. -/
  | pull
  /-- It is stopped. -/
  | stop
  /-- It is removed. -/
  | remove
  /-- Its replacement is created. -/
  | create
  /-- The replacement is connected to the networks. -/
  | reconnect
  /-- The replacement is started. -/
  | start
  deriving DecidableEq, Repr

namespace UpdateStage

/-- All steps in their order. -/
def all : List UpdateStage := [.inspect, .pull, .stop, .remove, .create, .reconnect, .start]

/-- The name of a step. -/
def name : UpdateStage → String
  | .inspect => "inspect"
  | .pull => "pull"
  | .stop => "stop"
  | .remove => "remove"
  | .create => "create"
  | .reconnect => "reconnect"
  | .start => "start"

/-- The step with a name. -/
def ofName? (name : String) : Option UpdateStage :=
  all.find? (·.name = name)

/-- Whether the old container is gone when this step fails. -/
def isPastRemoval : UpdateStage → Bool
  | .create | .reconnect | .start => true
  | _ => false

end UpdateStage

/-! ### Errors -/

/-- Why an operation fails. -/
inductive ServiceError where
  /-- What was asked for does not exist. -/
  | notFound (message : String)
  /-- The container is protected. -/
  | blacklisted (containerId : String)
  /-- There is nothing to do. -/
  | alreadyInDesiredState (message : String)
  /-- The daemon fails. -/
  | runtime (message : String)
  /-- The operation was cut short. -/
  | interrupted (message : String)
  /-- An argument is out of its range. -/
  | invalidArgument (message : String)
  /-- The configuration is wrong. -/
  | config (message : String)
  /-- A step of an update fails. -/
  | updateFailed (container : String) (stage : UpdateStage) (source : ServiceError)
  deriving DecidableEq, Repr

namespace ServiceError

/-- The text that reports an error. -/
def message : ServiceError → String
  | .notFound m => "Resource Not Found: " ++ m
  | .blacklisted id => "Container is blacklisted and cannot be modified: " ++ id
  | .alreadyInDesiredState m => "Already In Desired State: " ++ m
  | .runtime m => "Runtime Error: " ++ m
  | .interrupted m => "Interrupted: " ++ m
  | .invalidArgument m => "Invalid Argument: " ++ m
  | .config m => "Configuration Error: " ++ m
  | .updateFailed container stage source =>
    "Failed to update container " ++ container ++ " during " ++ stage.name ++ ": " ++ source.message

/-- The failure below all wrappers. -/
def root : ServiceError → ServiceError
  | .updateFailed _ _ source => source.root
  | e => e

/-- The error directly below, if this one wraps another. -/
def source? : ServiceError → Option ServiceError
  | .updateFailed _ _ source => some source
  | _ => none

/-- The errors below, each the direct source of the one before it. -/
def sources : ServiceError → List ServiceError
  | .updateFailed _ _ source => source :: source.sources
  | _ => []

/-- Whether a protected container was refused. -/
def isBlacklisted (e : ServiceError) : Bool :=
  match e.root with
  | .blacklisted _ => true
  | _ => false

/-- Whether something was not found. -/
def isNotFound (e : ServiceError) : Bool :=
  match e.root with
  | .notFound _ => true
  | _ => false

/-- The error wrapped in failed steps, the first of the list outermost. -/
def wrap (layers : List (String × UpdateStage)) (e : ServiceError) : ServiceError :=
  layers.foldr (fun layer inner => .updateFailed layer.1 layer.2 inner) e

/-- The error that a failed request to the daemon amounts to. -/
def ofFault : DaemonFault → ServiceError
  | .response 404 message => .notFound message
  | .response 304 message => .alreadyInDesiredState message
  | .timeout => .interrupted "request to the Docker daemon timed out"
  | fault => .runtime fault.message

end ServiceError

end Dockmaster
