/-!
# Sets of characters

A set of characters is written as the code points at which membership changes, in ascending order
and starting outside. The sets that the program needs are properties of the Unicode character
database.
-/

namespace CobolDialects

/-- The ascending code points at which membership changes. -/
structure CharSet where
  changes : List Nat

namespace CharSet

/-- A character is in the set when an odd number of changes lie at or before it. -/
def contains (s : CharSet) (c : Char) : Bool :=
  (s.changes.takeWhile (· ≤ c.toNat)).length % 2 == 1

/-- The property `White_Space`. -/
def whiteSpace : CharSet where
  changes := [9, 14, 32, 33, 133, 134, 160, 161, 5760, 5761, 8192, 8203, 8232, 8234, 8239, 8240,
    8287, 8288, 12288, 12289]

example : whiteSpace.contains (Char.ofNat 0x85) = true := by decide
example : whiteSpace.contains (Char.ofNat 0x200B) = false := by decide
example : whiteSpace.contains (Char.ofNat 0xFEFF) = false := by decide

end CharSet

/-- Whether a text shows nothing: every character is white space. -/
def isBlank (s : List Char) : Bool := s.all CharSet.whiteSpace.contains

/-- A text without the white space at its ends. -/
def trim (s : List Char) : List Char :=
  ((s.dropWhile CharSet.whiteSpace.contains).reverse.dropWhile CharSet.whiteSpace.contains).reverse

end CobolDialects
