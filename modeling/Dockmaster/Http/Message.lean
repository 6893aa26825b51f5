import Dockmaster.Http.Target
import Dockmaster.Json.Basic

/-!
# Requests and responses

The messages that are exchanged with a daemon behind an address.
-/

namespace Dockmaster

/-- A request. -/
structure HttpRequest where
  /-- The method. -/
  method : String
  /-- The path, encoded. -/
  path : String
  /-- The names and values of the query, in increasing order of the names. -/
  query : List (String × String)
  /-- The body. -/
  body : Option Json := none

namespace HttpRequest

/-- The request with a method for a target. A query that is given takes the place of the one in the
target. -/
def of (method target : String) (query : Option (List (String × String))) : HttpRequest :=
  let located := Http.Target.ofText target
  { method
    path := located.path
    query := (query.getD located.query).mergeSort fun a b => decide (a.1 ≤ b.1) }

/-- The JSON form. -/
def toJson (message : HttpRequest) : Json :=
  .ofMembers [("method", .text message.method), ("path", .text message.path),
    ("query", .array (message.query.map fun pair => .texts [pair.1, pair.2])),
    ("body", message.body.getD .null)]

end HttpRequest

/-- A response. -/
structure HttpResponse where
  /-- The status. -/
  status : Nat
  /-- The bytes that were sent as the body. -/
  body : List UInt8

namespace HttpResponse

/-- The status that says that nothing was changed. -/
def notModified : Nat := 304

/-- The status that says that there is no body. -/
def noContent : Nat := 204

/-- The bytes that count as the body. -/
def content (response : HttpResponse) : List UInt8 :=
  if response.status = noContent ∨ response.status = notModified then [] else response.body

/-- Whether the status is a success. That nothing was changed is one too. -/
def isSuccess (response : HttpResponse) : Bool :=
  (200 ≤ response.status && response.status < 300) || response.status = notModified

/-- The response that a JSON value holds, with its body as a text. -/
def ofJson? (value : Json) : Option HttpResponse := do
  let status ← (value.member? "status").bind Json.asInt?
  let body ← (value.member? "body").bind Json.asText?
  return ⟨status.toNat, Text.Utf8.encode body⟩

end HttpResponse

end Dockmaster
