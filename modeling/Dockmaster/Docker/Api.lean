import Dockmaster.Daemon.Request
import Dockmaster.Docker.LogFraming
import Dockmaster.Docker.Progress
import Dockmaster.Http.Message
import Dockmaster.Json.Printer

/-!
# The interface of the daemon

How each request to the daemon is written as a message, and what its response means.
-/

namespace Dockmaster.Docker

open Json

/-! ### Requests -/

/-- The word for a truth value. -/
def wordOf (b : Bool) : String := if b then "true" else "false"

/-- The target for something that is done with a container. -/
def containerTarget (reference action : String) : String :=
  "/containers/" ++ reference ++ action

/-- The filter for images by reference. -/
def referenceFilter (image : String) : String :=
  (Json.ofMembers [("reference", .texts [image])]).render

/-- The body that connects a container to a network. -/
def connectBody (container : String) (aliases : Option (List String)) : Json :=
  .ofMembers [("Container", .text container),
    ("EndpointConfig", .ofPresent [("Aliases", aliases.map .texts)])]

/-- The message for a request. -/
def messageOf : Request → HttpRequest
  | .list all =>
    .of "GET" "/containers/json" (some [("all", wordOf all), ("size", "false"),
      ("filters", (Json.ofMembers []).render)])
  | .inspect reference => .of "GET" (containerTarget reference "/json") none
  | .listImages image =>
    .of "GET" "/images/json" (some [("all", "false"), ("filters", referenceFilter image),
      ("digests", "false")])
  | .pull image =>
    .of "POST" "/images/create" (some [("fromImage", image), ("fromSrc", ""), ("repo", ""),
      ("tag", ""), ("platform", "")])
  | .stop reference grace =>
    .of "POST" (containerTarget reference "/stop") (some [("t", toString grace)])
  | .restart reference grace =>
    .of "POST" (containerTarget reference "/restart") (some [("t", toString grace)])
  | .remove reference force =>
    .of "DELETE" (containerTarget reference "") (some [("v", "false"), ("force", wordOf force),
      ("link", "false")])
  | .create name config =>
    { HttpRequest.of "POST" "/containers/create" (some [("name", name)]) with
      body := some config.toJson }
  | .start reference => .of "POST" (containerTarget reference "/start") none
  | .connect network container aliases =>
    { HttpRequest.of "POST" ("/networks/" ++ network ++ "/connect") none with
      body := some (connectBody container aliases) }

/-- The message that opens a log feed. -/
def logMessageOf (id : String) (query : LogQuery) : HttpRequest :=
  .of "GET" (containerTarget id "/logs") (some [("follow", wordOf query.follow),
    ("stdout", "true"), ("stderr", "true"), ("since", "0"),
    ("timestamps", wordOf query.timestamps), ("tail", query.tail)])

/-- The message that asks the daemon for its version. -/
def versionMessage : HttpRequest := .of "GET" "/version" none

/-! ### Responses -/

/-- The failure that a body amounts to when it is not JSON. -/
def bodyFault (fault : Json.Fault) : DaemonFault :=
  if fault.reason.isEnd then .malformed fault else .unreadable

/-- What a body holds. -/
def readBody {α : Type} (decode? : Json → Option α) (bytes : List UInt8) :
    Except DaemonFault α :=
  match Text.Utf8.decode? bytes with
  | none => .error .unreadable
  | some text =>
    match parse text with
    | .error fault => .error (bodyFault fault)
    | .ok value =>
      match decode? value with
      | some a => .ok a
      | none => .error .unreadable

/-- The failure that a response reports whose status is no success. The body may be a record with a
message; otherwise it is the message itself. -/
def reportedFault (response : HttpResponse) : DaemonFault :=
  let body := Text.Utf8.decode response.content
  if body = "" then .response response.status ""
  else
    match parse body with
    | .ok value =>
      let message := (Shapes.failure.read value).bind fun record =>
        (record.member? "message").bind asText?
      .response response.status (message.getD body)
    | .error fault =>
      if fault.reason.isEnd then .malformed fault else .response response.status body

/-- What came of a message: a response, or the step at which the exchange broke off. -/
abbrev Exchanged := Except ExchangeStep HttpResponse

/-- The body of a response that is a success. -/
def successBody : Exchanged → Except DaemonFault (List UInt8)
  | .error step => .error (.exchange step)
  | .ok response =>
    if response.isSuccess then .ok response.content else .error (reportedFault response)

/-- What a response holds. -/
def readResponse {α : Type} (decode? : Json → Option α) (exchanged : Exchanged) :
    Except DaemonFault α :=
  (successBody exchanged).bind (readBody decode?)

/-- Whether a response is a success. Its body does not count. -/
def acknowledged (exchanged : Exchanged) : Except DaemonFault Unit :=
  (successBody exchanged).map fun _ => ()

/-- The answer to a request that a response means. -/
def answerOf : (request : Request) → Exchanged → Answer request
  | .list _, exchanged => readResponse ListingRecord.listOfJson? exchanged
  | .inspect _, exchanged => readResponse InspectRecord.ofJson? exchanged
  | .listImages _, exchanged => readResponse imageIdsOfJson? exchanged
  | .pull _, exchanged => (successBody exchanged).bind readProgress
  | .stop _ _, exchanged => acknowledged exchanged
  | .restart _ _, exchanged => acknowledged exchanged
  | .remove _ _, exchanged => acknowledged exchanged
  | .create _ _, exchanged => readResponse createdIdOfJson? exchanged
  | .start _, exchanged => acknowledged exchanged
  | .connect _ _ _, exchanged => acknowledged exchanged

/-- The log feed that a response means. -/
def feedOf (exchanged : Exchanged) : Feed :=
  match successBody exchanged with
  | .ok bytes => logFeed bytes
  | .error fault => [⟨0, .fault fault⟩]

/-- Whether a response tells the version of the daemon. -/
def versionOf (exchanged : Exchanged) : Except DaemonFault Unit :=
  readResponse (fun value => (Shapes.version.read value).map fun _ => ()) exchanged

end Dockmaster.Docker
