/-!
# UTF-8

`decode` turns any bytes into characters: each longest run of bytes that begins a character without
completing it, and each byte that can begin none, becomes one replacement character. The decoder is
a machine that takes one byte at a time, so that the bytes may arrive in pieces cut anywhere.
`decode?` accepts only bytes that are the encoding of a text.
-/

namespace Dockmaster.Text.Utf8

/-- The character that stands for bytes that are no character. -/
def replacement : Char := '\uFFFD'

/-! ### The decoder -/

/-- What a decoder remembers between two bytes. -/
inductive State where
  /-- The next byte begins a character. -/
  | start
  /-- A character is begun: so many bytes are missing, the next one must lie between `low` and
  `high`, and the bits so far make up `bits`. -/
  | within (missing : Nat) (low high : UInt8) (bits : Nat)
  deriving DecidableEq, Repr

/-- The state after a byte at the beginning of a character, and the characters it completes. The
bounds on the second byte rule out overlong forms, surrogates and what lies above U+10FFFF. -/
def first (b : UInt8) : State × List Char :=
  if b < 0x80 then (.start, [Char.ofNat b.toNat])
  else if b < 0xC2 then (.start, [replacement])
  else if b < 0xE0 then (.within 1 0x80 0xBF (b.toNat - 0xC0), [])
  else if b < 0xF0 then
    let low := if b = 0xE0 then 0xA0 else 0x80
    let high := if b = 0xED then 0x9F else 0xBF
    (.within 2 low high (b.toNat - 0xE0), [])
  else if b < 0xF5 then
    let low := if b = 0xF0 then 0x90 else 0x80
    let high := if b = 0xF4 then 0x8F else 0xBF
    (.within 3 low high (b.toNat - 0xF0), [])
  else (.start, [replacement])

/-- The state after one more byte, and the characters that it brings out. -/
def step : State → UInt8 → State × List Char
  | .start, b => first b
  | .within missing low high bits, b =>
    if low ≤ b ∧ b ≤ high then
      let bits := 64 * bits + (b.toNat - 0x80)
      if missing ≤ 1 then (.start, [Char.ofNat bits])
      else (.within (missing - 1) 0x80 0xBF bits, [])
    else
      let (state, out) := first b
      (state, replacement :: out)

/-- The characters that come out when the bytes end in a state. -/
def finish : State → List Char
  | .start => []
  | .within .. => [replacement]

/-- The state and the characters after some bytes. -/
def run : State → List UInt8 → State × List Char
  | state, [] => (state, [])
  | state, b :: bs =>
    let (next, out) := step state b
    let (last, rest) := run next bs
    (last, out ++ rest)

/-- The characters that some bytes stand for. -/
def decodeChars (bytes : List UInt8) : List Char :=
  let (state, out) := run .start bytes
  out ++ finish state

/-- The text that some bytes stand for. -/
def decode (bytes : List UInt8) : String :=
  String.ofList (decodeChars bytes)

/-- Bytes may be decoded piece by piece if the state is kept. -/
theorem run_append (state : State) (xs ys : List UInt8) :
    run state (xs ++ ys)
      = ((run (run state xs).1 ys).1, (run state xs).2 ++ (run (run state xs).1 ys).2) := by
  induction xs generalizing state with
  | nil => simp [run]
  | cons x xs ih => simp [run, ih]

/-! ### The encoder -/

/-- The bytes of a list of characters. -/
def encodeChars (cs : List Char) : List UInt8 :=
  cs.flatMap String.utf8EncodeChar

/-- The bytes of a text. -/
def encode (s : String) : List UInt8 :=
  encodeChars s.toList

/-- The text of which the bytes are the encoding, if there is one. -/
def decode? (bytes : List UInt8) : Option String :=
  let s := decode bytes
  if encode s = bytes then some s else none

end Dockmaster.Text.Utf8
