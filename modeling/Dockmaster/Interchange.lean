import Dockmaster.Container.Identity
import Dockmaster.Container.Summary
import Dockmaster.Error
import Dockmaster.Json.Parser
import Dockmaster.Json.Printer
import Dockmaster.Json.Shape
import Dockmaster.Log.Line

/-!
# The shared types as JSON

Identities, summaries, log lines, streams and update steps travel as JSON texts. Each type has a
writer, `toJson`, and a reader of texts, `ofText?`. A record is written as an object with its fields
in order; it is also read from an object in any order with foreign members, and from an array.
-/

namespace Dockmaster

open Json

/-- Reads a text as a value of a shape, and then as something else. -/
def readAs {α : Type} (shape : Shape) (decode? : Json → Option α) (s : String) : Option α :=
  match parse s with
  | .ok value => (shape.read value).bind decode?
  | .error _ => none

/-! ### Identities -/

namespace Identity

/-- The fields of an identity. -/
def shape : Shape := .record [("id", .text), ("name", .text), ("image", .text)]

/-- The JSON form. -/
def toJson (identity : Identity) : Json :=
  .ofMembers [("id", .text identity.id), ("name", .text identity.name),
    ("image", .text identity.image)]

/-- The identity that a normal record holds. -/
def ofRecord? : Json → Option Identity
  | .object [(_, .string (some id)), (_, .string (some name)), (_, .string (some image))] =>
    some ⟨id, name, image⟩
  | _ => none

/-- The identity that a text holds. -/
def ofText? (s : String) : Option Identity := readAs shape ofRecord? s

end Identity

/-! ### Summaries -/

namespace Summary

/-- The fields of a summary. -/
def shape : Shape :=
  .record [("id", .text), ("name", .text), ("image", .text), ("state", .text), ("status", .text)]

/-- The JSON form. -/
def toJson (s : Summary) : Json :=
  .ofMembers [("id", .text s.id), ("name", .text s.name), ("image", .text s.image),
    ("state", .text s.state), ("status", .text s.status)]

/-- The summary that a normal record holds. -/
def ofRecord? : Json → Option Summary
  | .object [(_, .string (some id)), (_, .string (some name)), (_, .string (some image)),
      (_, .string (some state)), (_, .string (some status))] =>
    some ⟨id, name, image, state, status⟩
  | _ => none

/-- The summary that a text holds. -/
def ofText? (s : String) : Option Summary := readAs shape ofRecord? s

end Summary

/-! ### Streams and lines -/

namespace OutputStream

/-- The names of the streams. -/
def shape : Shape := .choice (all.map name)

/-- The JSON form. -/
def toJson (stream : OutputStream) : Json := .text stream.name

/-- The stream that a normal value names. -/
def ofRecord? : Json → Option OutputStream
  | .string (some name) => ofName? name
  | _ => none

/-- The stream that a text names. -/
def ofText? (s : String) : Option OutputStream := readAs shape ofRecord? s

end OutputStream

namespace LogLine

/-- The fields of a line. -/
def shape : Shape := .record [("stream", OutputStream.shape), ("text", .text)]

/-- The JSON form. -/
def toJson (line : LogLine) : Json :=
  .ofMembers [("stream", line.stream.toJson), ("text", .text line.text)]

/-- The line that a normal record holds. -/
def ofRecord? : Json → Option LogLine
  | .object [(_, stream), (_, .string (some text))] =>
    (OutputStream.ofRecord? stream).map fun stream => ⟨stream, text⟩
  | _ => none

/-- The line that a text holds. -/
def ofText? (s : String) : Option LogLine := readAs shape ofRecord? s

end LogLine

/-! ### Update steps -/

namespace UpdateStage

/-- The names of the steps. -/
def shape : Shape := .choice (all.map name)

/-- The JSON form. -/
def toJson (stage : UpdateStage) : Json := .text stage.name

/-- The step that a normal value names. -/
def ofRecord? : Json → Option UpdateStage
  | .string (some name) => ofName? name
  | _ => none

/-- The step that a text names. -/
def ofText? (s : String) : Option UpdateStage := readAs shape ofRecord? s

end UpdateStage

end Dockmaster
