import Dockmaster.Json.Parser

/-!
# Failures of daemon calls

Every way in which a request to the container daemon can fail, with the text that reports it. A
failure may have causes below it; `chain` lists the texts from the failure down.
-/

namespace Dockmaster

/-- The step at which the exchange of one request with the daemon breaks off. -/
inductive ExchangeStep where
  /-- No connection comes about. -/
  | connect
  /-- The connection ends before it brings an answer. -/
  | sendRequest
  deriving DecidableEq, Repr

/-- A failed request to the daemon. -/
inductive DaemonFault where
  /-- The daemon answers with a status that is no success. -/
  | response (status : Nat) (message : String)
  /-- The daemon does not answer in time. -/
  | timeout
  /-- A stream of progress records reports an error. -/
  | stream (error : String)
  /-- Waiting for a container ends with an error. -/
  | wait (error : String) (code : Int)
  /-- A JSON body cannot be read, for a stated reason. -/
  | json (message : String)
  /-- A JSON body does not hold what was asked for. -/
  | unreadable
  /-- A JSON text ends too early or, in a stream, is none. -/
  | malformed (fault : Json.Fault)
  /-- The version of the interface is no version. -/
  | apiVersion
  /-- A build needs a session and has none. -/
  | missingSession
  /-- A build needs the version of its builder. -/
  | missingVersion
  /-- The scheme of an address is unknown. -/
  | uriScheme (uri : String)
  /-- There is no socket at a path. -/
  | socketNotFound (path : String)
  /-- Input or output fails. -/
  | io (message : String)
  /-- A text cannot be formatted. -/
  | format
  /-- The exchange with the daemon breaks off. -/
  | exchange (step : ExchangeStep)
  deriving DecidableEq, Repr

/-- What is said of an exchange that breaks off. -/
def ExchangeStep.message : ExchangeStep → String
  | .connect => "client error (Connect)"
  | .sendRequest => "client error (SendRequest)"

/-- What lies below an exchange that breaks off. -/
def ExchangeStep.causes : ExchangeStep → List String
  | .connect => ["tcp connect error", "Network is unreachable (os error 101)"]
  | .sendRequest => ["connection closed before message completed"]

namespace DaemonFault

/-- The text that reports a failure. -/
def message : DaemonFault → String
  | .response status message =>
    "Docker responded with status code " ++ toString status ++ ": " ++ message
  | .timeout => "Timeout error"
  | .stream _ => "Docker stream error"
  | .wait _ _ => "Docker container wait error"
  | .json message => "Failed to deserialize JSON: " ++ message
  | .unreadable => "Failed to deserialize JSON"
  | .malformed fault => fault.message
  | .apiVersion => "Failed to parse API version"
  | .missingSession => "Buildkit requires a unique session"
  | .missingVersion => "Buildkit requires a builder version set"
  | .uriScheme uri => "URI scheme is not supported: " ++ uri
  | .socketNotFound path => "Socket not found: " ++ path
  | .io message => message
  | .format => "an error occurred when formatting an argument"
  | .exchange step => "Error in the hyper legacy client: " ++ step.message

/-- The texts of a failure and of the causes below it, outermost first. -/
def chain : DaemonFault → List String
  | .exchange step => (DaemonFault.exchange step).message :: step.message :: step.causes
  | fault => [fault.message]

end DaemonFault

end Dockmaster
