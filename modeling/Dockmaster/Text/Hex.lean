/-!
# Hexadecimal digits

The value of a hexadecimal digit, the digits of a small number, and bytes written as pairs of
digits.
-/

namespace Dockmaster.Text

/-- The value of a hexadecimal digit in either case. -/
def hexValue? (c : Char) : Option Nat :=
  if '0' ≤ c ∧ c ≤ '9' then some (c.toNat - '0'.toNat)
  else if 'a' ≤ c ∧ c ≤ 'f' then some (c.toNat - 'a'.toNat + 10)
  else if 'A' ≤ c ∧ c ≤ 'F' then some (c.toNat - 'A'.toNat + 10)
  else none

/-- The small digit of a number below sixteen. -/
def hexDigit (n : Nat) : Char :=
  if n < 10 then Char.ofNat ('0'.toNat + n) else Char.ofNat ('a'.toNat + (n - 10))

/-- The capital digit of a number below sixteen. -/
def hexCapital (n : Nat) : Char :=
  if n < 10 then Char.ofNat ('0'.toNat + n) else Char.ofNat ('A'.toNat + (n - 10))

/-- The number of two digits. -/
def hexPair? (high low : Char) : Option Nat := do
  return 16 * (← hexValue? high) + (← hexValue? low)

/-- The bytes that pairs of digits denote. -/
def hexBytes? : List Char → Option (List UInt8)
  | [] => some []
  | [_] => none
  | high :: low :: rest => do
    let n ← hexPair? high low
    return UInt8.ofNat n :: (← hexBytes? rest)

end Dockmaster.Text
