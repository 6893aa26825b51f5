import Dockmaster.Engine
import Dockmaster.Json.Parser
import Dockmaster.Startup.Basic

/-!
# The command line

The service as a program. It takes its configuration from the environment and from an environment
file in the current directory. Messages to the daemon go to standard output and responses come from
standard input, each as one line of JSON, so that a relay can carry them to the address that is
configured; when the relay is gone, the service ends.
-/

namespace Dockmaster.CommandLine

/-- Whether there is something at a path. -/
def pathExists (path : String) : IO Bool := do
  try
    let _ ← IO.FS.Handle.mk path .read
    return true
  catch
    | .noFileOrDirectory .. => return false
    | _ => return true

/-- The environment file in the current directory, if there is one. -/
def environmentFile : IO String := do
  try IO.FS.readFile ".env" catch _ => return ""

/-- The variables that the service looks at. -/
def variableNames : List String :=
  [Config.hostKey, Config.blacklistKey, Config.updateIntervalKey, Config.healthIntervalKey,
    Config.streamBufferKey, Config.readTimeoutKey, Startup.localHostKey]

/-- The variables of the environment. -/
def environment : IO EnvFile.Variables := do
  let mut env : EnvFile.Variables := fun _ => none
  for name in variableNames do
    if let some value ← IO.getEnv name then
      env := env.set name value
  return env

/-- Sends a message and waits for what comes of it; nothing if the relay is gone. -/
def exchange (message : HttpRequest) : IO (Option Docker.Exchanged) := do
  let output ← IO.getStdout
  output.putStrLn message.toJson.render
  output.flush
  let line ← (← IO.getStdin).getLine
  if line.isEmpty then return none
  match Json.parse line with
  | .ok value => return some ((HttpResponse.ofJson? value).elim (.error .sendRequest) .ok)
  | .error _ => return some (.error .sendRequest)

/-- Carries an operation out; nothing if the relay is gone before it is over. -/
partial def carryOut (guard : Guard) (op : Operation) : IO (Option Outcome) := do
  let answers : Answers ← match op.request? with
    | none => pure Engine.noAnswers
    | some request =>
      match ← exchange (Docker.messageOf request) with
      | some exchanged => pure fun request => Docker.answerOf request exchanged
      | none => return none
  match op.resume guard answers with
  | .running next => carryOut guard next
  | .finished outcome => return some outcome

/-- Runs the monitor, which was started at a time, until the relay is gone. -/
partial def watch (guard : Guard) (began : Nat) (monitor : Monitor) : IO Unit := do
  let moment := min monitor.updates.next monitor.health.next
  let now := (← IO.monoMsNow) - began
  if now < moment then
    IO.sleep (UInt32.ofNat (min (moment - now) 1000))
    watch guard began monitor
  else
    let check := if monitor.updates.isDue now then Check.updates else Check.health
    if let some _ ← carryOut guard check.operation then
      let duration := (← IO.monoMsNow) - began - now
      watch guard began (monitor.after check now duration)

/-- Runs the service. -/
def run : IO Ending := do
  let env := EnvFile.load (← environment) (← environmentFile)
  let found ← match Config.ofLookup env with
    | .ok config =>
      match Endpoint.ofConfig config (env Startup.localHostKey) with
      | .socket path => pathExists path
      | .network _ => pure true
    | .error _ => pure false
  match Startup.connect (fun _ => found) env with
  | .error ending => return ending
  | .ok (config, _) =>
    match ← exchange Docker.versionMessage with
    | none => return .interrupted
    | some exchanged =>
      match Docker.versionOf exchanged with
      | .error fault => return .failed fault.chain
      | .ok _ =>
        watch (.ofList config.blacklist) (← IO.monoMsNow) (.ofConfig config)
        return .interrupted

end Dockmaster.CommandLine

/-- Runs the service and reports how it ends. -/
def main : IO UInt32 := do
  let ending ← Dockmaster.CommandLine.run
  for text in ending.chain do
    IO.eprintln text
  return UInt32.ofNat ending.exitCode
