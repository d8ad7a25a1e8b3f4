/-! # Blank characters

The characters with the Unicode property `White_Space`, and texts cut or tested by them.
-/

namespace EntityMapper

/-- Whether a character lies in one of some inclusive code point ranges. -/
def inRanges (ranges : List (Nat × Nat)) (c : Char) : Bool :=
  ranges.any fun (first, last) => first ≤ c.toNat ∧ c.toNat ≤ last

/-- The inclusive code point ranges of the property `White_Space`. -/
def blankRanges : List (Nat × Nat) :=
  [(0x9, 0xd), (0x20, 0x20), (0x85, 0x85), (0xa0, 0xa0), (0x1680, 0x1680), (0x2000, 0x200a),
   (0x2028, 0x2029), (0x202f, 0x202f), (0x205f, 0x205f), (0x3000, 0x3000)]

/-- Whether a character is blank. -/
def isBlank (c : Char) : Bool := inRanges blankRanges c

/-- A run of characters without the blank ones at its two ends. -/
def trimBlank (cs : List Char) : List Char :=
  ((cs.dropWhile isBlank).reverse.dropWhile isBlank).reverse

/-- A text of blank characters only. -/
def allBlank (text : String) : Bool := text.toList.all isBlank

end EntityMapper
