/-!
# Blank characters

The white space of the Unicode standard, together with the four separators `U+001C` to `U+001F`.
-/

namespace OptimalAssignment.Text

/-- First and last code point of each run of blank characters. -/
def blankRanges : List (Nat × Nat) :=
  [
    (0x9, 0xd), (0x1c, 0x20), (0x85, 0x85), (0xa0, 0xa0), (0x1680, 0x1680), (0x2000, 0x200a),
    (0x2028, 0x2029), (0x202f, 0x202f), (0x205f, 0x205f), (0x3000, 0x3000)
  ]

def isBlank (c : Char) : Bool :=
  blankRanges.any fun r => r.1 ≤ c.toNat && c.toNat ≤ r.2

/-- The blanks a number may stand between: of the control characters, only `U+0009` to `U+000D`. -/
def isNumberBlank (c : Char) : Bool :=
  isBlank c && !(0x1c ≤ c.toNat && c.toNat ≤ 0x1f)

/-- The blanks of ASCII: the space and `U+0009` to `U+000D`. -/
def isPlainBlank (c : Char) : Bool :=
  c.toNat = 0x20 || (9 ≤ c.toNat && c.toNat ≤ 0xd)

/-- Drops the characters of a class from both ends. -/
def trim (p : Char → Bool) (cs : List Char) : List Char :=
  ((cs.dropWhile p).reverse.dropWhile p).reverse

end OptimalAssignment.Text
