import Dockmaster.Json.Basic
import Dockmaster.Text.Hex

/-!
# Reading JSON

A strict reader: only the four JSON blanks between tokens, no control character inside a string, no
comma before a closing bracket, nothing after the value. A fault names the reason and the place: the
line and the column, counted in bytes, of the character that cannot stand where it does, or of the
end of the text. A fault at the end of the text means that more text might have made it right.
-/

namespace Dockmaster.Json

open Text

/-! ### Faults -/

/-- Why a text is not JSON. -/
inductive Reason where
  /-- The text ends inside a list. -/
  | endInList
  /-- The text ends inside an object. -/
  | endInObject
  /-- The text ends inside a string. -/
  | endInString
  /-- The text ends where a value must begin or go on. -/
  | endInValue
  /-- There is no colon after a name. -/
  | expectedColon
  /-- An item is followed by neither a comma nor the end of the list. -/
  | expectedItemEnd
  /-- A member is followed by neither a comma nor the end of the object. -/
  | expectedMemberEnd
  /-- A word is misspelt. -/
  | expectedWord
  /-- No value begins with this character. -/
  | expectedValue
  /-- A backslash is followed by what is no escape. -/
  | invalidEscape
  /-- A number has a needless zero in front or lacks a digit. -/
  | invalidNumber
  /-- A control character stands in a string. -/
  | controlCharacter
  /-- A name is no string. -/
  | nameNotString
  /-- A comma is followed by the end of the list or object. -/
  | trailingComma
  /-- Something follows the value. -/
  | trailingCharacters
  deriving DecidableEq, Repr

/-- The reason in words. -/
def Reason.message : Reason → String
  | .endInList => "EOF while parsing a list"
  | .endInObject => "EOF while parsing an object"
  | .endInString => "EOF while parsing a string"
  | .endInValue => "EOF while parsing a value"
  | .expectedColon => "expected `:`"
  | .expectedItemEnd => "expected `,` or `]`"
  | .expectedMemberEnd => "expected `,` or `\x7d`"
  | .expectedWord => "expected ident"
  | .expectedValue => "expected value"
  | .invalidEscape => "invalid escape"
  | .invalidNumber => "invalid number"
  | .controlCharacter => "control character (\\u0000-\\u001F) found while parsing a string"
  | .nameNotString => "key must be a string"
  | .trailingComma => "trailing comma"
  | .trailingCharacters => "trailing characters"

/-- Whether the text ended too early. -/
def Reason.isEnd : Reason → Bool
  | .endInList | .endInObject | .endInString | .endInValue => true
  | _ => false

/-- A fault in a text: its reason, and the line and column of the character at fault. -/
structure Fault where
  /-- What is wrong. -/
  reason : Reason
  /-- The line, from one. -/
  line : Nat
  /-- The column in bytes, from one; zero at the beginning of a line on which the text ends. -/
  column : Nat
  deriving DecidableEq, Repr

/-- The fault in words. -/
def Fault.message (fault : Fault) : String :=
  fault.reason.message ++ " at line " ++ toString fault.line ++ " column " ++ toString fault.column

/-- The line and the column reached after some characters. -/
def position (cs : List Char) : Nat × Nat :=
  cs.foldl (fun place c => if c = '\n' then (place.1 + 1, 0) else (place.1, place.2 + c.utf8Size))
    (1, 0)

/-- The fault of a text for a reason, of which the last so many characters had not been read. The
first of these is the character at fault; of it one byte is counted. -/
def Fault.locate (cs : List Char) (reason : Reason) (unread : List Char) : Fault :=
  let before := position (cs.take (cs.length - unread.length))
  match unread with
  | [] => ⟨reason, before.1, before.2⟩
  | '\n' :: _ => ⟨reason, before.1 + 1, 0⟩
  | _ :: _ => ⟨reason, before.1, before.2 + 1⟩

/-- Where and why reading stops: the reason, and the characters from the one at fault on. -/
abbrev Stop := Reason × List Char

/-! ### Blanks, words and numbers -/

/-- Whether a character may stand between tokens. -/
def isSpace (c : Char) : Bool :=
  c = ' ' || c = '\n' || c = '\t' || c = '\r'

/-- The characters from the next token on. -/
def skipSpace (cs : List Char) : List Char :=
  cs.dropWhile isSpace

/-- Reads the rest of a word. -/
def readWordRest (value : Json) : List Char → List Char → Except Stop (Json × List Char)
  | [], cs => .ok (value, cs)
  | _ :: _, [] => .error (.endInValue, [])
  | expected :: rest, c :: cs =>
    if c = expected then readWordRest value rest cs else .error (.expectedWord, c :: cs)

/-- Reads one or more digits. -/
def readDigits (cs : List Char) : Except Stop (List Char × List Char) :=
  match cs.takeWhile Char.isDigit, cs.dropWhile Char.isDigit with
  | [], [] => .error (.endInValue, [])
  | [], c :: rest => .error (.invalidNumber, c :: rest)
  | digits, rest => .ok (digits, rest)

/-- Reads a point and digits, if there is a point. -/
def readFraction : List Char → Except Stop (List Char × List Char)
  | '.' :: cs => do
    let (digits, rest) ← readDigits cs
    return ('.' :: digits, rest)
  | cs => .ok ([], cs)

/-- Reads an exponent, if there is one. -/
def readExponent : List Char → Except Stop (List Char × List Char)
  | c :: cs =>
    if c = 'e' ∨ c = 'E' then do
      let (sign, body) := match cs with
        | '+' :: rest => (['+'], rest)
        | '-' :: rest => (['-'], rest)
        | _ => ([], cs)
      let (digits, rest) ← readDigits body
      return (c :: (sign ++ digits), rest)
    else .ok ([], c :: cs)
  | [] => .ok ([], [])

/-- Reads digits without a needless zero in front. -/
def readWhole (cs : List Char) : Except Stop (List Char × List Char) := do
  let (digits, rest) ← readDigits cs
  match digits with
  | '0' :: next :: more => .error (.invalidNumber, next :: (more ++ rest))
  | _ => return (digits, rest)

/-- The value of decimal digits. -/
def wholeValue (digits : List Char) : Nat :=
  digits.foldl (fun value c => 10 * value + (c.toNat - '0'.toNat)) 0

/-- The number that is spelt by a sign, digits, a fraction and an exponent. -/
def numberOf (negative : Bool) (digits fraction exponent : List Char) : Json :=
  let value := wholeValue digits
  if fraction = [] ∧ exponent = [] ∧ ¬(negative = true ∧ value = 0) then
    .integer (if negative then -(value : Int) else value)
  else
    .decimal (String.ofList ((if negative then ['-'] else []) ++ digits ++ fraction ++ exponent))

/-- Reads a number. -/
def readNumber (cs : List Char) : Except Stop (Json × List Char) := do
  let (negative, body) := match cs with
    | '-' :: rest => (true, rest)
    | _ => (false, cs)
  let (digits, cs) ← readWhole body
  let (fraction, cs) ← readFraction cs
  let (exponent, cs) ← readExponent cs
  return (numberOf negative digits fraction exponent, cs)

/-! ### Strings -/

/-- A piece of a string literal: a character, or a unit of sixteen bits written by its number. -/
inductive Piece where
  /-- A character that stands for itself or is escaped by a letter. -/
  | char (c : Char)
  /-- Four hexadecimal digits. -/
  | code (n : Nat)
  deriving DecidableEq, Repr

/-- The character that a letter after a backslash stands for. -/
def unescape? : Char → Option Char
  | '"' => some '"'
  | '\\' => some '\\'
  | '/' => some '/'
  | 'b' => some '\x08'
  | 'f' => some '\x0c'
  | 'n' => some '\n'
  | 'r' => some '\r'
  | 't' => some '\t'
  | _ => none

/-- The number of four hexadecimal digits. -/
def hexCode? (a b c d : Char) : Option Nat := do
  return 256 * (← hexPair? a b) + (← hexPair? c d)

/-- Reads the pieces of a string literal after its opening quotation mark. -/
def readPieces : List Char → Except Stop (List Piece × List Char)
  | [] => .error (.endInString, [])
  | '"' :: cs => .ok ([], cs)
  | '\\' :: 'u' :: a :: b :: c :: d :: cs =>
    match hexCode? a b c d with
    | none => .error (.invalidEscape, d :: cs)
    | some n => do
      let (pieces, rest) ← readPieces cs
      return (.code n :: pieces, rest)
  | '\\' :: 'u' :: _ => .error (.endInString, [])
  | '\\' :: e :: cs =>
    match unescape? e with
    | none => .error (.invalidEscape, e :: cs)
    | some c => do
      let (pieces, rest) ← readPieces cs
      return (.char c :: pieces, rest)
  | ['\\'] => .error (.endInString, [])
  | c :: cs =>
    if c.toNat < 0x20 then .error (.controlCharacter, c :: cs)
    else do
      let (pieces, rest) ← readPieces cs
      return (.char c :: pieces, rest)

/-- Whether a unit is the first half of a surrogate pair. -/
def isHighHalf (n : Nat) : Bool := 0xD800 ≤ n && n ≤ 0xDBFF

/-- Whether a unit is the second half of a surrogate pair. -/
def isLowHalf (n : Nat) : Bool := 0xDC00 ≤ n && n ≤ 0xDFFF

/-- The character of a surrogate pair. -/
def joinHalves (high low : Nat) : Char :=
  Char.ofNat (0x10000 + 0x400 * (high - 0xD800) + (low - 0xDC00))

/-- The characters that pieces denote, unless a half of a surrogate pair stands alone. -/
def assemble? : List Piece → Option (List Char)
  | [] => some []
  | .char c :: rest => (assemble? rest).map (c :: ·)
  | .code high :: .code low :: rest =>
    if isHighHalf high then
      if isLowHalf low then (assemble? rest).map (joinHalves high low :: ·) else none
    else if isLowHalf high then none
    else (assemble? (.code low :: rest)).map (Char.ofNat high :: ·)
  | .code n :: rest =>
    if isHighHalf n || isLowHalf n then none else (assemble? rest).map (Char.ofNat n :: ·)

/-- Reads a string literal after its opening quotation mark. -/
def readLiteral (cs : List Char) : Except Stop (Literal × List Char) := do
  let (pieces, rest) ← readPieces cs
  return ((assemble? pieces).map String.ofList, rest)

/-! ### Values -/

/-- The characters after the colon that must come next. -/
def readColon (cs : List Char) : Except Stop (List Char) :=
  match skipSpace cs with
  | [] => .error (.endInObject, [])
  | ':' :: rest => .ok rest
  | rest => .error (.expectedColon, rest)

mutual

/-- Reads a value. The number bounds the steps; twice the length of the text is always enough. -/
def readValue : Nat → List Char → Except Stop (Json × List Char)
  | 0, cs => .error (.expectedValue, cs)
  | steps + 1, cs =>
    match skipSpace cs with
    | [] => .error (.endInValue, [])
    | 'n' :: rest => readWordRest .null ['u', 'l', 'l'] rest
    | 't' :: rest => readWordRest (.bool true) ['r', 'u', 'e'] rest
    | 'f' :: rest => readWordRest (.bool false) ['a', 'l', 's', 'e'] rest
    | '"' :: rest => do
      let (s, rest) ← readLiteral rest
      return (.string s, rest)
    | '[' :: rest =>
      match skipSpace rest with
      | [] => .error (.endInList, [])
      | ']' :: rest => .ok (.array [], rest)
      | rest => do
        let (items, rest) ← readItems steps rest
        return (.array items, rest)
    | '\x7b' :: rest =>
      match skipSpace rest with
      | [] => .error (.endInObject, [])
      | '\x7d' :: rest => .ok (.object [], rest)
      | rest => do
        let (members, rest) ← readMembers steps rest
        return (.object members, rest)
    | c :: rest =>
      if c = '-' || c.isDigit then readNumber (c :: rest) else .error (.expectedValue, c :: rest)

/-- Reads the items of a list, of which there is at least one, and its closing bracket. -/
def readItems : Nat → List Char → Except Stop (List Json × List Char)
  | 0, cs => .error (.expectedValue, cs)
  | steps + 1, cs => do
    let (item, rest) ← readValue steps cs
    match skipSpace rest with
    | [] => .error (.endInList, [])
    | ']' :: rest => return ([item], rest)
    | ',' :: rest =>
      match skipSpace rest with
      | [] => .error (.endInValue, [])
      | ']' :: rest => .error (.trailingComma, ']' :: rest)
      | rest => do
        let (items, rest) ← readItems steps rest
        return (item :: items, rest)
    | rest => .error (.expectedItemEnd, rest)

/-- Reads the members of an object, of which there is at least one, and its closing brace. -/
def readMembers : Nat → List Char → Except Stop (List (Literal × Json) × List Char)
  | 0, cs => .error (.nameNotString, cs)
  | steps + 1, cs =>
    match cs with
    | '"' :: rest => do
      let (name, rest) ← readLiteral rest
      let rest ← readColon rest
      let (value, rest) ← readValue steps rest
      match skipSpace rest with
      | [] => .error (.endInObject, [])
      | '\x7d' :: rest => return ([(name, value)], rest)
      | ',' :: rest =>
        match skipSpace rest with
        | [] => .error (.endInValue, [])
        | '\x7d' :: rest => .error (.trailingComma, '\x7d' :: rest)
        | rest => do
          let (members, rest) ← readMembers steps rest
          return ((name, value) :: members, rest)
      | rest => .error (.expectedMemberEnd, rest)
    | _ => .error (.nameNotString, cs)

end

/-- Reads a text that is one value and blanks around it. -/
def readAll (cs : List Char) : Except Stop Json := do
  let (value, rest) ← readValue (2 * cs.length + 2) cs
  match skipSpace rest with
  | [] => return value
  | rest => .error (.trailingCharacters, rest)

/-- The value of a JSON text. -/
def parse (s : String) : Except Fault Json :=
  match readAll s.toList with
  | .ok value => .ok value
  | .error (reason, unread) => .error (Fault.locate s.toList reason unread)

end Dockmaster.Json
