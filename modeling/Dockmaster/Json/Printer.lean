import Dockmaster.Json.Basic
import Dockmaster.Text.Hex

/-!
# Writing JSON

The compact form of a value: no blanks, members in their order. In a string the quotation mark, the
backslash and the control characters are escaped, five of these by a letter and the others by four
hexadecimal digits; every other character stands for itself.
-/

namespace Dockmaster.Json

open Text

/-! ### Strings -/

/-- The escape of a control character that has no letter of its own. -/
def escapeCode (c : Char) : List Char :=
  ['\\', 'u', '0', '0', hexDigit (c.toNat / 16), hexDigit (c.toNat % 16)]

/-- One character inside a string literal. -/
def escape (c : Char) : List Char :=
  if c = '"' then ['\\', '"']
  else if c = '\\' then ['\\', '\\']
  else if c = '\n' then ['\\', 'n']
  else if c = '\r' then ['\\', 'r']
  else if c = '\t' then ['\\', 't']
  else if c = '\x08' then ['\\', 'b']
  else if c = '\x0c' then ['\\', 'f']
  else if c.toNat < 0x20 then escapeCode c
  else [c]

/-- The literal of a text. -/
def writeText (cs : List Char) : List Char :=
  '"' :: (cs.flatMap escape ++ ['"'])

/-- A literal; the one that denotes nothing is written as a lone half of a surrogate pair. -/
def writeLiteral : Literal → List Char
  | some s => writeText s.toList
  | none => ['"', '\\', 'u', 'd', '8', '0', '0', '"']

/-! ### Values -/

/-- The decimal digits of an integer. -/
def writeInteger (n : Int) : List Char :=
  if n < 0 then '-' :: Nat.toDigits 10 n.natAbs else Nat.toDigits 10 n.natAbs

mutual

/-- The characters of a value. -/
def write : Json → List Char
  | .null => ['n', 'u', 'l', 'l']
  | .bool true => ['t', 'r', 'u', 'e']
  | .bool false => ['f', 'a', 'l', 's', 'e']
  | .integer n => writeInteger n
  | .decimal spelling => spelling.toList
  | .string s => writeLiteral s
  | .array items => '[' :: (writeItems items ++ [']'])
  | .object members => '\x7b' :: (writeMembers members ++ ['\x7d'])

/-- The characters of the items of a list. -/
def writeItems : List Json → List Char
  | [] => []
  | [item] => write item
  | item :: next :: rest => write item ++ ',' :: writeItems (next :: rest)

/-- The characters of the members of an object. -/
def writeMembers : List (Literal × Json) → List Char
  | [] => []
  | [(name, value)] => writeLiteral name ++ ':' :: write value
  | (name, value) :: next :: rest =>
    writeLiteral name ++ ':' :: (write value ++ ',' :: writeMembers (next :: rest))

end

/-- The compact text of a value. -/
def render (value : Json) : String :=
  String.ofList (write value)

end Dockmaster.Json
