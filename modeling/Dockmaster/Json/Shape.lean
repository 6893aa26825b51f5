import Dockmaster.Json.Basic

/-!
# Shapes of JSON values

A shape says which values a reader accepts. `Shape.read` checks a value against a shape and brings
it into a normal form: a record keeps only its own fields, in the order in which they are declared,
and leaves out those that are absent or null; a dictionary keeps the last value of each name.

A record may be written in two ways: as an object with its fields in any order and foreign members
among them, or as the array of all its fields in their order. A choice may be written as a string,
or as an object whose only member has the chosen name and the value null.
-/

namespace Dockmaster.Json

/-- The values that a reader accepts. -/
inductive Shape where
  /-- A string that denotes a text. -/
  | text
  /-- A truth value. -/
  | flag
  /-- An integer between two bounds. -/
  | integer (low high : Int)
  /-- Any number. -/
  | number
  /-- An object without members. -/
  | hollow
  /-- A value of the shape, or null. A field of this shape may be absent. -/
  | optional (shape : Shape)
  /-- A value of the shape, or null. A field of this shape must be present. -/
  | nullable (shape : Shape)
  /-- A list whose items have the shape. -/
  | list (shape : Shape)
  /-- An object with any names and values of the shape. -/
  | dict (shape : Shape)
  /-- A record with these fields, in the order of their declaration. -/
  | record (fields : List (String × Shape))
  /-- One of some names. -/
  | choice (names : List String)
  deriving Inhabited, Repr

namespace Shape

/-- Whether a field of the shape may be absent. -/
def isOptional : Shape → Bool
  | .optional _ => true
  | _ => false

/-- Whether a value is null. -/
def isNull : Json → Bool
  | .null => true
  | _ => false

/-- The members of an object without those that a later one of the same name replaces. -/
def lastOfEach : List (Literal × Json) → List (Literal × Json)
  | [] => []
  | member :: rest =>
    if rest.any (·.1 = member.1) then lastOfEach rest else member :: lastOfEach rest

/-- A field put before the others, unless its value is null. -/
def addField (name : String) (value : Json) (rest : List (Literal × Json)) :
    List (Literal × Json) :=
  if isNull value then rest else (some name, value) :: rest

/-- The name that a value chooses. -/
def chosen? : Json → Option String
  | .string s => s
  | .object [(name, .null)] => name
  | _ => none

mutual

/-- The normal form of a value, if it has the shape. -/
def read : Shape → Json → Option Json
  | .text, .string (some s) => some (.string (some s))
  | .flag, .bool b => some (.bool b)
  | .integer low high, .integer n => if low ≤ n ∧ n ≤ high then some (.integer n) else none
  | .number, .integer n => some (.integer n)
  | .number, .decimal spelling => some (.decimal spelling)
  | .hollow, .object [] => some (.object [])
  | .optional shape, value => if isNull value then some .null else read shape value
  | .nullable shape, value => if isNull value then some .null else read shape value
  | .list shape, .array items => (items.mapM fun item => read shape item).map .array
  | .dict shape, .object members => do
    let entries ← members.mapM fun member => do
      let name ← member.1
      let value ← read shape member.2
      return (some name, value)
    return .object (lastOfEach entries)
  | .record fields, .object members =>
    if members.any (·.1.isNone) then none else (readFields fields members).map .object
  | .record fields, .array items => (readPositions fields items).map .object
  | .choice names, value => do
    let name ← chosen? value
    if name ∈ names then return .string (some name) else none
  | _, _ => none

/-- The fields of a record that is written as an object. No field may be written twice. -/
def readFields : List (String × Shape) → List (Literal × Json) → Option (List (Literal × Json))
  | [], _ => some []
  | (name, shape) :: fields, members =>
    match members.filter (·.1 = some name) with
    | [] => if isOptional shape then readFields fields members else none
    | [member] => do
      let value ← read shape member.2
      return addField name value (← readFields fields members)
    | _ => none

/-- The fields of a record that is written as an array. -/
def readPositions : List (String × Shape) → List Json → Option (List (Literal × Json))
  | [], [] => some []
  | (name, shape) :: fields, item :: items => do
    let value ← read shape item
    return addField name value (← readPositions fields items)
  | _, _ => none

end

end Shape

end Dockmaster.Json
