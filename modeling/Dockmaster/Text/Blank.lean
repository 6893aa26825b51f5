/-!
# Blank characters and trimming

The characters with the Unicode property White_Space, and the removal of blanks at the two ends of
a text. Everything works on lists of characters; `trim` is the same thing on strings.
-/

namespace Dockmaster.Text

/-! ### The blank characters -/

/-- The ranges of code points with the property White_Space, each from its first to its last. -/
def blankRanges : List (Nat × Nat) :=
  [(0x9, 0xD), (0x20, 0x20), (0x85, 0x85), (0xA0, 0xA0), (0x1680, 0x1680), (0x2000, 0x200A),
    (0x2028, 0x2029), (0x202F, 0x202F), (0x205F, 0x205F), (0x3000, 0x3000)]

/-- Whether a character is white space. -/
def isBlank (c : Char) : Bool :=
  blankRanges.any fun range => range.1 ≤ c.toNat && c.toNat ≤ range.2

/-! ### Trimming -/

/-- The characters without the blanks they begin with. -/
def trimStart (cs : List Char) : List Char :=
  cs.dropWhile isBlank

/-- The characters without the blanks they end with. -/
def trimEnd (cs : List Char) : List Char :=
  (cs.reverse.dropWhile isBlank).reverse

/-- The characters without the blanks at either end. -/
def trimChars (cs : List Char) : List Char :=
  trimEnd (trimStart cs)

/-- The text without the blanks at either end. -/
def trim (s : String) : String :=
  String.ofList (trimChars s.toList)

end Dockmaster.Text
