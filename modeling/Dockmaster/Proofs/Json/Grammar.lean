import Dockmaster.Json.Parser

/-!
# The grammar of JSON texts

Which texts spell which values, without a reader. A text is a value with blanks around it
(`IsTextOf`). A value is a word, a number, a string in quotation marks, or items or members between
brackets, separated by commas, with blanks wherever two tokens meet (`Spells`).

The pieces of a string literal stand for units of sixteen bits. The literal denotes the text that
has the same units, and nothing if no text has them (`SpellsLiteral`): a character beyond the first
65536 may be written by itself or by the two halves of a surrogate pair, and no text has half of a
pair alone.
-/

namespace Dockmaster.Json

/-- The characters are blanks. -/
def IsBlank (cs : List Char) : Prop := ∀ c ∈ cs, isSpace c = true

/-! ### Strings -/

/-- The units of sixteen bits of a character. -/
def units (c : Char) : List Nat :=
  if c.toNat < 0x10000 then [c.toNat]
  else [0xD800 + (c.toNat - 0x10000) / 0x400, 0xDC00 + (c.toNat - 0x10000) % 0x400]

/-- The units of sixteen bits that a piece of a string literal stands for. -/
def Piece.units : Piece → List Nat
  | .char c => Json.units c
  | .code n => [n]

/-- How a piece of a string literal is written. -/
inductive SpellsPiece : Piece → List Char → Prop
  /-- A character stands for itself unless it has to be escaped. -/
  | plain {c : Char} (unquoted : c ≠ '"') (unescaped : c ≠ '\\') (uncontrolled : 0x20 ≤ c.toNat) :
      SpellsPiece (.char c) [c]
  /-- A letter after a backslash stands for a character. -/
  | letter {e c : Char} (stands : unescape? e = some c) : SpellsPiece (.char c) ['\\', e]
  /-- Four hexadecimal digits stand for a unit. -/
  | code {a b c d : Char} {n : Nat} (digits : hexCode? a b c d = some n) :
      SpellsPiece (.code n) ['\\', 'u', a, b, c, d]

/-- How pieces are written one after another. -/
inductive SpellsPieces : List Piece → List Char → Prop
  /-- Nothing is written for no pieces. -/
  | nil : SpellsPieces [] []
  /-- One piece is written before the others. -/
  | cons {piece : Piece} {pieces : List Piece} {cs rest : List Char} (first : SpellsPiece piece cs)
      (others : SpellsPieces pieces rest) : SpellsPieces (piece :: pieces) (cs ++ rest)

/-- What stands between the quotation marks of a literal. -/
def SpellsLiteral (literal : Literal) (cs : List Char) : Prop :=
  ∃ pieces, SpellsPieces pieces cs ∧
    ∀ s, literal = some s ↔ pieces.flatMap Piece.units = s.toList.flatMap units

/-! ### Numbers -/

/-- One or more digits. -/
def IsDigits (cs : List Char) : Prop := cs ≠ [] ∧ ∀ c ∈ cs, c.isDigit = true

/-- Digits without a needless zero in front. -/
def IsWhole (cs : List Char) : Prop := IsDigits cs ∧ ∀ rest, cs = '0' :: rest → rest = []

/-- Nothing, or a point and digits. -/
inductive IsFraction : List Char → Prop
  /-- There is no fraction. -/
  | none : IsFraction []
  /-- There is one. -/
  | digits {cs : List Char} (h : IsDigits cs) : IsFraction ('.' :: cs)

/-- Nothing, or an exponent with or without a sign. -/
inductive IsExponent : List Char → Prop
  /-- There is no exponent. -/
  | none : IsExponent []
  /-- There is one. -/
  | digits {mark : Char} {sign cs : List Char} (isMark : mark = 'e' ∨ mark = 'E')
      (isSign : sign = [] ∨ sign = ['+'] ∨ sign = ['-']) (h : IsDigits cs) :
      IsExponent (mark :: (sign ++ cs))

/-- The minus sign of a number. -/
def minus (negative : Bool) : List Char := if negative then ['-'] else []

/-! ### Values -/

/-- How one or more things are written with commas between them, given how each is written. -/
inductive Separated {α : Type} (Written : α → List Char → Prop) : List α → List Char → Prop
  /-- The last is written, with blanks behind it. -/
  | last {x : α} {cs blanks : List Char} (written : Written x cs) (blank : IsBlank blanks) :
      Separated Written [x] (cs ++ blanks)
  /-- One is written, with blanks around the comma before the others. -/
  | cons {x : α} {xs : List α} {cs before after rest : List Char} (written : Written x cs)
      (blankBefore : IsBlank before) (blankAfter : IsBlank after)
      (others : Separated Written xs rest) :
      Separated Written (x :: xs) (cs ++ (before ++ ',' :: (after ++ rest)))

/-- How a member of an object is written, given how its value is. -/
inductive SpellsMember (Written : Json → List Char → Prop) : Literal × Json → List Char → Prop
  /-- The name is written, a colon with blanks around it, and the value. -/
  | mk {name : Literal} {value : Json} {body before after cs : List Char}
      (spelt : SpellsLiteral name body) (blankBefore : IsBlank before)
      (blankAfter : IsBlank after) (written : Written value cs) :
      SpellsMember Written (name, value) ('"' :: (body ++ '"' :: (before ++ ':' :: (after ++ cs))))

/-- **Which characters spell a value.** -/
inductive Spells : Json → List Char → Prop
  /-- No value. -/
  | null : Spells .null ['n', 'u', 'l', 'l']
  /-- The truth value for yes. -/
  | yes : Spells (.bool true) ['t', 'r', 'u', 'e']
  /-- The truth value for no. -/
  | no : Spells (.bool false) ['f', 'a', 'l', 's', 'e']
  /-- A number. -/
  | number (negative : Bool) {whole fraction exponent : List Char} (isWhole : IsWhole whole)
      (isFraction : IsFraction fraction) (isExponent : IsExponent exponent) :
      Spells (numberOf negative whole fraction exponent)
        (minus negative ++ (whole ++ (fraction ++ exponent)))
  /-- A string. -/
  | string {literal : Literal} {body : List Char} (spelt : SpellsLiteral literal body) :
      Spells (.string literal) ('"' :: (body ++ ['"']))
  /-- A list without items. -/
  | emptyArray {blanks : List Char} (blank : IsBlank blanks) :
      Spells (.array []) ('[' :: (blanks ++ [']']))
  /-- A list. -/
  | array {items : List Json} {blanks cs : List Char} (blank : IsBlank blanks)
      (spelt : Separated Spells items cs) :
      Spells (.array items) ('[' :: (blanks ++ (cs ++ [']'])))
  /-- An object without members. -/
  | emptyObject {blanks : List Char} (blank : IsBlank blanks) :
      Spells (.object []) ('\x7b' :: (blanks ++ ['\x7d']))
  /-- An object. -/
  | object {members : List (Literal × Json)} {blanks cs : List Char} (blank : IsBlank blanks)
      (spelt : Separated (SpellsMember Spells) members cs) :
      Spells (.object members) ('\x7b' :: (blanks ++ (cs ++ ['\x7d'])))

/-- **Which texts are texts of a value.** -/
def IsTextOf (value : Json) (s : String) : Prop :=
  ∃ before cs after, IsBlank before ∧ Spells value cs ∧ IsBlank after ∧
    s.toList = before ++ (cs ++ after)

end Dockmaster.Json
