/-!
# Blank characters

The characters with the property `White_Space`, and text without those at its two ends.

* `isBlank`: the property;
* `trimStart`, `trim`: the text without its leading blanks, without its outer blanks.
-/

namespace Slab.Text

/-- White space: the controls 9 to 13, the space and the spaces and separators beyond ASCII. -/
def isBlank (c : Char) : Bool :=
  let n := c.toNat
  (9 ≤ n && n ≤ 13) || n == 32 || n == 0x85 || n == 0xA0 || n == 0x1680 ||
    (0x2000 ≤ n && n ≤ 0x200A) || n == 0x2028 || n == 0x2029 || n == 0x202F || n == 0x205F ||
    n == 0x3000

/-- The text without its leading blanks. -/
def trimStart (s : List Char) : List Char := s.dropWhile isBlank

/-- The text without its trailing blanks. -/
def trimEnd (s : List Char) : List Char := (s.reverse.dropWhile isBlank).reverse

/-- The text without its leading and trailing blanks. -/
def trim (s : List Char) : List Char := trimEnd (trimStart s)

end Slab.Text
