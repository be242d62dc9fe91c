/-!
# Decimal numerals

* `digit?`, `value`: the value of one decimal digit, of a list of them;
* `natural? s`: the value of one or more digits;
* `unsigned? bound s`: an optional plus sign and one or more digits whose value is below `bound`;
* `signed? s`: an optional sign and one or more digits whose value a signed word of 64 bits holds.
-/

namespace Slab.Numeral

/-- A decimal digit of ASCII. -/
def isDigit (c : Char) : Bool := 48 ≤ c.toNat && c.toNat ≤ 57

/-- The value of a decimal digit. -/
def digit? (c : Char) : Option Nat := if isDigit c then some (c.toNat - 48) else none

/-- The number that the digits write when `n` was written before them. -/
def value (n : Nat) : List Char → Nat
  | [] => n
  | c :: s => value (n * 10 + (c.toNat - 48)) s

/-- The value of one or more decimal digits. -/
def natural? (s : List Char) : Option Nat :=
  if !s.isEmpty && s.all isDigit then some (value 0 s) else none

/-- The text without one plus sign in front. -/
def dropPlus : List Char → List Char
  | '+' :: s => s
  | s => s

/-- An optional plus sign and one or more digits, worth less than `bound`. -/
def unsigned? (bound : Nat) (s : List Char) : Option Nat :=
  (natural? (dropPlus s)).filter (· < bound)

/-- The first number too large for a word with a sign: `2 ^ 63`. -/
def signedBound : Nat := Nat.pow 2 63

/-- An optional sign and one or more digits, worth at least `-2 ^ 63` and less than `2 ^ 63`. -/
def signed? (s : List Char) : Option Int :=
  match s with
  | '-' :: t => (natural? t).bind fun n => if n ≤ signedBound then some (-(n : Int)) else none
  | _ => (natural? (dropPlus s)).bind fun n => if n < signedBound then some (n : Int) else none

/-- The number written in decimal. -/
def decimal (n : Nat) : String := Nat.repr n

/-- The integer written in decimal, a minus sign in front of a negative one. -/
def signedDecimal (i : Int) : String :=
  if i < 0 then "-" ++ decimal i.natAbs else decimal i.toNat

end Slab.Numeral
