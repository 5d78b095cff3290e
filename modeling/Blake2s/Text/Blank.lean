set_option autoImplicit false

/-! # Blank characters

`isWhiteSpace` is the Unicode property White_Space. `isBlank` adds to it the four separators
U+001C to U+001F. Outer blanks are dropped by `trim`. -/

namespace Blake2s.Text

/-- The characters with the Unicode property White_Space, as ranges of code points with both ends
    included. -/
def whiteSpaceRanges : List (Nat × Nat) :=
  [(0x09, 0x0D), (0x20, 0x20), (0x85, 0x85), (0xA0, 0xA0), (0x1680, 0x1680), (0x2000, 0x200A),
   (0x2028, 0x2029), (0x202F, 0x202F), (0x205F, 0x205F), (0x3000, 0x3000)]

/-- Has the character the property White_Space? -/
def isWhiteSpace (c : Char) : Bool :=
  whiteSpaceRanges.any fun r => r.1 ≤ c.toNat && c.toNat ≤ r.2

/-- Is the character white space or one of the separators U+001C to U+001F? -/
def isBlank (c : Char) : Bool := isWhiteSpace c || (0x1C ≤ c.toNat && c.toNat ≤ 0x1F)

/-- Drops the characters of a class at the start and at the end of a text. -/
def trim (drop : Char → Bool) (text : List Char) : List Char :=
  ((text.dropWhile drop).reverse.dropWhile drop).reverse

end Blake2s.Text
