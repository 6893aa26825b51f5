import Dockmaster.Text.Hex
import Dockmaster.Text.Segment
import Dockmaster.Text.Utf8

/-!
# Request targets

The target of a request is written as a path in which names may occur that hold any characters. As
in every address, blanks at its ends and line breaks do not count, a question mark begins the query,
a number sign ends it, segments of one or two points walk through the path, and characters that
cannot stand in a path are written as their bytes in hexadecimal.
-/

namespace Dockmaster.Http

open Text

/-- Where a request goes. -/
structure Target where
  /-- The path, encoded. -/
  path : String
  /-- The names and values after the question mark, decoded. -/
  query : List (String × String)
  deriving DecidableEq, Repr

/-! ### Paths -/

/-- Whether a character stands in a path only in its encoded form. -/
def isEncoded (c : Char) : Bool :=
  c.toNat ≤ 0x20 || 0x7F ≤ c.toNat || ['"', '#', '<', '>', '?', '\x60', '\x7b', '\x7d'].contains c

/-- A byte as a percent sign and two capital digits. -/
def percentByte (b : UInt8) : List Char :=
  ['%', hexCapital (b.toNat / 16), hexCapital (b.toNat % 16)]

/-- A character as it stands in a path. -/
def encodeChar (c : Char) : List Char :=
  if isEncoded c then (String.utf8EncodeChar c).flatMap percentByte else [c]

/-- The spellings of a point in a path. -/
def pointSpellings : List (List Char) := [['.'], ['%', '2', 'e']]

/-- Whether a segment stands for the place where it is. -/
def isHere (segment : List Char) : Bool :=
  pointSpellings.contains (segment.map Char.toLower)

/-- Whether a segment stands for the place above. -/
def isAbove (segment : List Char) : Bool :=
  pointSpellings.any fun a => pointSpellings.any fun b => segment.map Char.toLower = a ++ b

/-- The segments of a path when the points in it are walked. The walk begins at the given segments,
the last of which comes first. A path that ends in points ends in an empty segment. -/
def walk (place : List (List Char)) : List (List Char) → List (List Char)
  | [] => place.reverse
  | [last] =>
    if isAbove last then walk ([] :: place.tail) []
    else if isHere last then walk ([] :: place) []
    else walk (last :: place) []
  | segment :: rest =>
    if isAbove segment then walk place.tail rest
    else if isHere segment then walk place rest
    else walk (segment :: place) rest

/-- A path that begins with a slash, as it stands in a request. -/
def encodePath (path : List Char) : List Char :=
  (walk [] (segments '/' (path.drop 1))).flatMap fun segment => '/' :: segment.flatMap encodeChar

/-! ### Queries -/

/-- The bytes of a part of a query, with a plus sign for a space and each percent sign before two
digits replaced by the byte that they denote. -/
def queryBytes : List Char → List UInt8
  | '%' :: high :: low :: rest =>
    match hexPair? high low with
    | some n => UInt8.ofNat n :: queryBytes rest
    | none => Utf8.encodeChars ['%'] ++ queryBytes (high :: low :: rest)
  | '+' :: rest => Utf8.encodeChars [' '] ++ queryBytes rest
  | c :: rest => Utf8.encodeChars [c] ++ queryBytes rest
  | [] => []

/-- The name and the value in a part of a query; without an equals sign the value is empty. -/
def queryPair (part : List Char) : String × String :=
  let name := part.takeWhile (· ≠ '=')
  (Utf8.decode (queryBytes name), Utf8.decode (queryBytes ((part.dropWhile (· ≠ '=')).drop 1)))

/-- The names and values of a query. -/
def queryPairs (query : List Char) : List (String × String) :=
  ((segments '&' query).filter (· ≠ [])).map queryPair

/-! ### Targets -/

/-- The characters of a target that count. -/
def significant (text : List Char) : List Char :=
  let isEdge (c : Char) : Bool := decide (c.toNat ≤ 0x20)
  let trimmed := ((text.dropWhile isEdge).reverse.dropWhile isEdge).reverse
  trimmed.filter fun c => ['\t', '\n', '\r'].contains c = false

/-- The target that a text stands for. -/
def Target.ofText (text : String) : Target :=
  let located := (significant text.toList).takeWhile (· ≠ '#')
  let path := located.takeWhile (· ≠ '?')
  ⟨String.ofList (encodePath path), queryPairs ((located.dropWhile (· ≠ '?')).drop 1)⟩

end Dockmaster.Http
