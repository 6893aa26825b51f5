import Dockmaster.Docker.Api
import Dockmaster.Job

/-!
# A daemon behind an address

The daemon as it is reached by exchanging messages. Requests become messages and responses become
answers; how the messages are carried is left open. A scripted peer carries them to a script of
replies, one for each message.
-/

namespace Dockmaster

open Docker

/-- A way to exchange messages: the state afterwards and what came of a message. -/
abbrev Transport (σ : Type) := σ → HttpRequest → σ × Exchanged

namespace Transport

variable {σ : Type}

/-- The daemon at the other end. -/
def server (transport : Transport σ) : Operation.Server σ := fun s request =>
  let (s, exchanged) := transport s (messageOf request)
  (s, answerOf request exchanged)

/-- The state after the feed of a container's log is opened, and the feed. -/
def openFeed (transport : Transport σ) (id : String) (s : σ) (query : LogQuery) : σ × Feed :=
  let (s, exchanged) := transport s (logMessageOf id query)
  (s, feedOf exchanged)

/-- The state after a job, and what it comes to; nothing if it never ends. -/
def perform (transport : Transport σ) (guard : Guard) (settings : LogSettings) (s : σ) :
    Job → σ × Option Result
  | .operation op =>
    let (s, outcome) := Operation.run guard transport.server s op
    (s, some (.outcome outcome))
  | .getLogs id tail =>
    let (s, read) := LogRead.lastLines (transport.openFeed id) settings.deadline tail s
    (s, (read.bind Reading.ofLastLines).map (·.result))
  | .streamAll id follow =>
    let (s, feed) := transport.openFeed id s (.live follow)
    (s, (Reading.ofOpened settings feed).map (·.result))

end Transport

/-! ### Scripted peers -/

/-- What a scripted peer does with a message. -/
inductive Reply where
  /-- It answers. -/
  | response (response : HttpResponse)
  /-- It closes the connection without an answer. -/
  | hangUp

/-- The other end of a connection that follows a script. -/
structure ScriptedPeer where
  /-- Whether messages get there. -/
  isReachable : Bool
  /-- The replies that are left. -/
  replies : List Reply
  /-- The messages that got there, the latest first. -/
  messages : List HttpRequest := []

namespace ScriptedPeer

/-- The response when no replies are left. -/
def unscripted : HttpResponse :=
  ⟨500, Text.Utf8.encode (Json.ofMembers [("message", .text "no response scripted")]).render⟩

/-- Exchanges a message. -/
def exchange : Transport ScriptedPeer := fun peer message =>
  if peer.isReachable then
    let messages := message :: peer.messages
    match peer.replies with
    | [] => ({ peer with messages }, .ok unscripted)
    | .response response :: replies => ({ peer with messages, replies }, .ok response)
    | .hangUp :: replies => ({ peer with messages, replies }, .error .sendRequest)
  else (peer, .error .connect)

/-- The peer with other replies and no messages. -/
def rescripted (peer : ScriptedPeer) (replies : List Reply) : ScriptedPeer :=
  { peer with replies, messages := [] }

end ScriptedPeer

end Dockmaster
