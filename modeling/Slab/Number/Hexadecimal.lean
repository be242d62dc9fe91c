/-!
# Numbers in base sixteen

* `Hex.digit?`, `Hex.read?`: the value of a digit, of a given number of digits at the beginning of a
  text;
* `Hex.char?`: the character of a number.
-/

namespace Slab.Hex

/-- The value of a digit in base sixteen. -/
def digit? (c : Char) : Option Nat :=
  let n := c.toNat
  if 48 ≤ n && n ≤ 57 then some (n - 48)
  else if 65 ≤ n && n ≤ 70 then some (n - 55)
  else if 97 ≤ n && n ≤ 102 then some (n - 87)
  else none

/-- The number that `count` digits write after `n`, and the rest of the text. -/
def read? : Nat → Nat → List Char → Option (Nat × List Char)
  | 0, n, s => some (n, s)
  | _ + 1, _, [] => none
  | count + 1, n, c :: s => (digit? c).bind fun d => read? count (n * 16 + d) s

/-- The character of a number, if there is one. -/
def char? (n : Nat) : Option Char := if n.isValidChar then some (Char.ofNat n) else none

end Slab.Hex
