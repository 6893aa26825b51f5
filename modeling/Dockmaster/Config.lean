import Dockmaster.Error
import Dockmaster.Guard
import Dockmaster.Text.Blank
import Dockmaster.Text.Decimal
import Dockmaster.Text.Segment

/-!
# Configuration

The settings of the service, read from named variables. A variable that is unset or blank leaves its
default. The numbers are read in one order, and the first that is wrong is the one reported.
-/

namespace Dockmaster

open Text

/-- The settings of the service. Times are in seconds. -/
structure Config where
  /-- The address of the daemon, if it is not the local default. -/
  host : Option String
  /-- The protected containers, in increasing order and without repetition. -/
  blacklist : List String
  /-- The time between two checks for updates. -/
  updateInterval : Nat
  /-- The time between two health checks. -/
  healthInterval : Nat
  /-- How many lines a live log stream may hold back. -/
  streamBuffer : Nat
  /-- The time after which reading historical logs is given up. -/
  readTimeout : Option Nat
  deriving DecidableEq, Repr

namespace Config

/-! ### The variables -/

/-- The variable for the address of the daemon. -/
def hostKey : String := "DSM_DOCKER_HOST"

/-- The variable for the protected containers. -/
def blacklistKey : String := "DSM_BLACKLIST"

/-- The variable for the time between two checks for updates. -/
def updateIntervalKey : String := "DSM_UPDATE_CHECK_INTERVAL_SECS"

/-- The variable for the time between two health checks. -/
def healthIntervalKey : String := "DSM_HEALTH_CHECK_INTERVAL_SECS"

/-- The variable for the buffer of a live log stream. -/
def streamBufferKey : String := "DSM_LOG_STREAM_BUFFER"

/-- The variable for the time given to reading historical logs. -/
def readTimeoutKey : String := "DSM_LOG_READ_TIMEOUT_SECS"

/-- The settings when no variable is set. -/
def default : Config where
  host := none
  blacklist := []
  updateInterval := 300
  healthInterval := 30
  streamBuffer := 256
  readTimeout := none

/-! ### Reading variables -/

/-- The entries of a list of protected containers: what stands between the commas, trimmed, and only
where something is left. -/
def blacklistEntries (raw : String) : List String :=
  (((segments ',' raw.toList).map trimChars).filter (· ≠ [])).map String.ofList

/-- A list of protected containers as a set. -/
def parseBlacklist (raw : String) : List String :=
  sortedSet (blacklistEntries raw)

/-- The text of a setting without blanks around it, if anything is left. -/
def present? (value : Option String) : Option String :=
  (value.map trim).filter (· ≠ "")

/-- The number that a variable holds, if it is set. A fault quotes the variable as it stands. -/
def readNumber (lookup : String → Option String) (key : String) :
    Except ServiceError (Option Nat) :=
  match lookup key with
  | none => .ok none
  | some raw =>
    match trimChars raw.toList with
    | [] => .ok none
    | digits =>
      match readWord digits with
      | .ok n => .ok (some n)
      | .error fault => .error (.config (key ++ "=" ++ raw ++ ": " ++ fault.message))

/-- The number that a variable holds, or its default; zero is refused. -/
def readPositive (lookup : String → Option String) (key : String) (default : Nat) :
    Except ServiceError Nat := do
  match ← readNumber lookup key with
  | some 0 => .error (.config (key ++ " must be greater than zero"))
  | some n => return n
  | none => return default

/-- The settings that the variables describe. -/
def ofLookup (lookup : String → Option String) : Except ServiceError Config := do
  let updateInterval ← readPositive lookup updateIntervalKey default.updateInterval
  let healthInterval ← readPositive lookup healthIntervalKey default.healthInterval
  let streamBuffer ← readPositive lookup streamBufferKey default.streamBuffer
  let readTimeout ← readNumber lookup readTimeoutKey
  return {
    host := present? (lookup hostKey)
    blacklist := ((lookup blacklistKey).map parseBlacklist).getD []
    updateInterval, healthInterval, streamBuffer
    readTimeout := readTimeout.filter (· ≠ 0) }

end Config

end Dockmaster
