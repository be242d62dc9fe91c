/-!
# Binary floating point of 64 bits

A number is its 64 bits: a sign, 11 bits of exponent and 52 bits of fraction. The operations work on
exact natural numbers and round once, to the nearest number and to the one with an even fraction
where two are equally near.

* `view`: what the bits mean, a finite number being `m * 2 ^ q` with its sign;
* `ofRatio`: the number nearest to a ratio of naturals;
* `ofNat`, `ofInt`, `neg`, `add`, `scale`: conversions and arithmetic through `ofRatio`;
* `le`: the order of numbers.
-/

namespace Slab

/-- A floating point number, as its bits. -/
structure Binary64 where
  bits : UInt64
  deriving DecidableEq, Inhabited, Repr

namespace Binary64

/-- What the bits of a number mean. A finite number is `m * 2 ^ q`. -/
inductive View
  | finite (negative : Bool) (m : Nat) (q : Int)
  | infinite (negative : Bool)
  | notANumber
  deriving DecidableEq, Repr

/-- Whether the sign bit is set. -/
def isNegative (x : Binary64) : Bool := Nat.pow 2 63 ≤ x.bits.toNat

/-- The bits below the sign. -/
def magnitudeBits (x : Binary64) : Nat := x.bits.toNat % Nat.pow 2 63

/-- The meaning of the bits. -/
def view (x : Binary64) : View :=
  let e : Nat := x.magnitudeBits / Nat.pow 2 52
  let f : Nat := x.magnitudeBits % Nat.pow 2 52
  if e = 2047 then if f = 0 then .infinite x.isNegative else .notANumber
  else if e = 0 then .finite x.isNegative f (-1074)
  else .finite x.isNegative (Nat.pow 2 52 + f) ((e : Int) - 1075)

/-- A number from its sign and its other bits. -/
def ofMagnitude (negative : Bool) (bits : Nat) : Binary64 :=
  ⟨UInt64.ofNat (if negative then Nat.pow 2 63 + bits else bits)⟩

/-- The bits of the positive infinity. -/
def infinityBits : Nat := 2047 * Nat.pow 2 52

def infinity (negative : Bool) : Binary64 := ofMagnitude negative infinityBits

def nan : Binary64 := ⟨0x7FF8000000000000⟩

/-- The quotient rounded to the nearest natural number, a tie to the even one. -/
def nearest (num den : Nat) : Nat :=
  let q := num / den
  let r := num % den
  if 2 * r < den then q
  else if den < 2 * r then q + 1
  else if q % 2 = 0 then q
  else q + 1

/-- The ratio `num / den` in units of `2 ^ q`, as a ratio again. -/
def inUnits (num den : Nat) (q : Int) : Nat × Nat :=
  if q < 0 then (num * Nat.pow 2 q.natAbs, den) else (num, den * Nat.pow 2 q.natAbs)

/-- The exponent of the last place of the number nearest to `num / den`: with it the ratio has 53
binary digits before its point, fewer only at the smallest exponent. -/
def lastPlace (num den : Nat) : Int :=
  let q : Int := (num.log2 : Int) - (den.log2 : Int) - 52
  let u := inUnits num den q
  max (if u.1 / u.2 < Nat.pow 2 52 then q - 1 else q) (-1074)

/-- The bits of the number nearest to the positive or zero ratio `num / den`. -/
def roundedBits (num den : Nat) : Nat :=
  if num = 0 then 0
  else
    let q := lastPlace num den
    let u := inUnits num den q
    min ((q + 1074).toNat * Nat.pow 2 52 + nearest u.1 u.2) infinityBits

/-- The number nearest to `num / den`, with the given sign. -/
def ofRatio (negative : Bool) (num den : Nat) : Binary64 :=
  ofMagnitude negative (roundedBits num den)

/-- The number nearest to a natural number. -/
def ofNat (n : Nat) : Binary64 := ofRatio false n 1

/-- The number nearest to an integer. -/
def ofInt (i : Int) : Binary64 := ofRatio (i < 0) i.natAbs 1

/-- The number nearest to `m * 2 ^ q`, with the given sign. -/
def ofDyadic (negative : Bool) (m : Nat) (q : Int) : Binary64 :=
  if q < 0 then ofRatio negative m (Nat.pow 2 q.natAbs)
  else ofRatio negative (m * Nat.pow 2 q.natAbs) 1

/-- The number with the other sign. -/
def neg (x : Binary64) : Binary64 := ofMagnitude (!x.isNegative) x.magnitudeBits

/-- The product with a natural number. -/
def scale (x : Binary64) (n : Nat) : Binary64 :=
  match x.view with
  | .finite s m q => ofDyadic s (m * n) q
  | .infinite s => if n = 0 then nan else infinity s
  | .notANumber => nan

/-- The integer `± m * 2 ^ (q - low)`. -/
def signedUnits (negative : Bool) (m : Nat) (q low : Int) : Int :=
  let n : Int := m * Nat.pow 2 (q - low).toNat
  if negative then -n else n

/-- The sum. Two zeros of one sign keep it, every other sum that is zero is positive. -/
def add (x y : Binary64) : Binary64 :=
  match x.view, y.view with
  | .finite s m q, .finite t n r =>
    let low := min q r
    let sum := signedUnits s m q low + signedUnits t n r low
    ofDyadic (if sum = 0 then s && t else sum < 0) sum.natAbs low
  | .infinite s, .infinite t => if s = t then infinity s else nan
  | .infinite s, .finite .. => infinity s
  | .finite .., .infinite t => infinity t
  | .notANumber, _ => nan
  | _, .notANumber => nan

/-- The number's place in the order of all numbers; the two zeros share one. -/
def rank (x : Binary64) : Int :=
  if x.isNegative then -(x.magnitudeBits : Int) else x.magnitudeBits

/-- Whether `x` is at most `y`. Nothing compares with what is not a number. -/
def le (x y : Binary64) : Bool :=
  match x.view, y.view with
  | .notANumber, _ => false
  | _, .notANumber => false
  | _, _ => x.rank ≤ y.rank

end Binary64
end Slab
