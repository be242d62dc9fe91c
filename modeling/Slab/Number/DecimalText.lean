import Slab.Number.Binary64
import Slab.Number.Numeral
import Slab.Text.Cut

/-!
# Reading a decimal text

`Binary64.ofText?` reads an optional sign and then `inf`, `infinity` or `nan` in any letter case, or
decimal digits with at most one point and an optional power of ten. The number is the nearest one.
-/

namespace Slab.Binary64

/-- The number nearest to `digits * 10 ^ exponent`. Powers that are certain to leave the range are
not computed. -/
def ofDecimal (negative : Bool) (digits : Nat) (exponent : Int) : Binary64 :=
  if digits = 0 then ofMagnitude negative 0
  else
    let length : Int := (digits.log2 : Int) * 30103 / 100000
    if exponent + length > 400 then infinity negative
    else if exponent + length < -400 then ofMagnitude negative 0
    else if exponent < 0 then ofRatio negative digits (Nat.pow 10 exponent.natAbs)
    else ofRatio negative (digits * Nat.pow 10 exponent.natAbs) 1

/-- An exponent: an optional sign and digits. -/
def exponent? : List Char → Option Int
  | '-' :: s => (Numeral.natural? s).map fun n => -(n : Int)
  | s => (Numeral.natural? (Numeral.dropPlus s)).map Int.ofNat

/-- Digits with at most one point among them or at their ends, at least one digit; as the number
that all digits write and the count of those after the point. -/
def mantissa? (s : List Char) : Option (Nat × Nat) :=
  let (whole, fraction) := (Text.cutFirst '.' s).getD (s, [])
  (Numeral.natural? (whole ++ fraction)).map fun n => (n, fraction.length)

/-- A number without sign. -/
def unsignedText? (negative : Bool) (s : List Char) : Option Binary64 :=
  let lower := s.map Char.toLower
  if lower = "inf".toList ∨ lower = "infinity".toList then some (infinity negative)
  else if lower = "nan".toList then some nan
  else
    let (digits, power) := (Text.cutFirst 'e' lower).getD (lower, ['0'])
    match mantissa? digits, exponent? power with
    | some (n, places), some e => some (ofDecimal negative n (e - places))
    | _, _ => none

/-- The number that a text writes. -/
def ofText? : List Char → Option Binary64
  | '-' :: s => unsignedText? true s
  | s => unsignedText? false (Numeral.dropPlus s)

/-- Whether a number is neither infinite nor undefined. -/
def isFinite (x : Binary64) : Bool :=
  match x.view with
  | .finite .. => true
  | _ => false

end Slab.Binary64
