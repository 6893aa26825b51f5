/-!
# Unsigned decimal numbers of 64 bits

`readWord` reads a number that may have one leading plus sign and is otherwise made of ASCII digits.
It refuses what is no number and what is too large for 64 bits. It goes from digit to digit and stops
at the first that makes the number too large: what follows is not looked at any more.
-/

namespace Dockmaster.Text

/-- The first number that 64 bits cannot hold. -/
def wordLimit : Nat := 18446744073709551616

/-- Why a text is not a number of 64 bits. -/
inductive NumberFault where
  /-- A character is not a digit, or there is no digit at all. -/
  | invalidDigit
  /-- The digits denote a number of `2 ^ 64` or more. -/
  | tooLarge
  deriving DecidableEq, Repr

/-- The reason in words. -/
def NumberFault.message : NumberFault → String
  | .invalidDigit => "invalid digit found in string"
  | .tooLarge => "number too large to fit in target type"

/-- The value of one decimal digit. -/
def digitValue (c : Char) : Nat := c.toNat - '0'.toNat

/-- The characters after one leading plus sign, if there is one. -/
def dropPlus : List Char → List Char
  | '+' :: rest => rest
  | cs => cs

/-- Reads digits up to the end, where those before denote `value`. What is no digit is refused
before the number that it would make is looked at. -/
def readWordFrom (value : Nat) : List Char → Except NumberFault Nat
  | [] => .ok value
  | c :: cs =>
    if c.isDigit = false then .error .invalidDigit
    else if wordLimit ≤ 10 * value + digitValue c then .error .tooLarge
    else readWordFrom (10 * value + digitValue c) cs

/-- Reads an unsigned number of 64 bits. -/
def readWord (cs : List Char) : Except NumberFault Nat :=
  match dropPlus cs with
  | [] => .error .invalidDigit
  | digits => readWordFrom 0 digits

end Dockmaster.Text
