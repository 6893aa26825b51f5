/-!
# JSON values

The values of a JSON text as they are written: members keep their order and may repeat a name, and a
number that is no plain integer keeps its spelling. A string literal denotes a text unless one of
its escapes is half of a surrogate pair; then it denotes nothing, and only a reader that never asks
for the text can pass over it.
-/

namespace Dockmaster

/-- What a string literal denotes: a text, or nothing when an escape is half of a surrogate pair. -/
abbrev Json.Literal := Option String

/-- A JSON value. -/
inductive Json where
  /-- The word for no value. -/
  | null
  /-- A truth value. -/
  | bool (b : Bool)
  /-- A number written as digits alone, with or without a minus sign. -/
  | integer (n : Int)
  /-- Any other number, as it is written; minus zero is one of them. -/
  | decimal (spelling : String)
  /-- A string. -/
  | string (s : Json.Literal)
  /-- A list of values. -/
  | array (items : List Json)
  /-- Named values in the order in which they are written. -/
  | object (members : List (Json.Literal × Json))
  deriving Inhabited, Repr

namespace Json

/-! ### Building values -/

/-- The string that denotes a text. -/
def text (s : String) : Json := .string (some s)

/-- The number of a natural number. -/
def nat (n : Nat) : Json := .integer n

/-- The list of some texts. -/
def texts (items : List String) : Json := .array (items.map text)

/-- A text, or no value. -/
def text? : Option String → Json
  | none => .null
  | some s => text s

/-- The object with the given members. -/
def ofMembers (members : List (String × Json)) : Json :=
  .object (members.map fun member => (some member.1, member.2))

/-- The object of those members that have a value. -/
def ofPresent (members : List (String × Option Json)) : Json :=
  ofMembers (members.filterMap fun member => member.2.map fun value => (member.1, value))

/-! ### Looking into values -/

/-- The value of the last member of an object that has a name. -/
def member? (name : String) : Json → Option Json
  | .object members => (members.reverse.find? fun member => member.1 = some name).map (·.2)
  | _ => none

/-- The text that a string denotes. -/
def asText? : Json → Option String
  | .string s => s
  | _ => none

/-- The truth value. -/
def asBool? : Json → Option Bool
  | .bool b => some b
  | _ => none

/-- The integer. -/
def asInt? : Json → Option Int
  | .integer n => some n
  | _ => none

/-- The items of a list. -/
def asArray? : Json → Option (List Json)
  | .array items => some items
  | _ => none

/-- The members of an object whose names are texts. -/
def asMembers? : Json → Option (List (String × Json))
  | .object members =>
    some (members.filterMap fun member => member.1.map fun name => (name, member.2))
  | _ => none

/-- The texts in a list. -/
def asTexts? (value : Json) : Option (List String) :=
  value.asArray?.map fun items => items.filterMap asText?

end Json

end Dockmaster
