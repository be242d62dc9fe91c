import Slab.Number.Binary64
import Slab.Number.Numeral

/-!
# The shortest decimal text of a number

The shortest text of a finite number is the one with the fewest digits among the decimals that round
to it, and the nearest of those.

* `Digits`: a decimal `digits * 10 ^ exponent`;
* `shortest?`: the shortest decimal of `m * 2 ^ q`;
* `Binary64.plainText`: that decimal without exponent notation;
* `Binary64.fullText`: the text that always shows a fractional part or an exponent.
-/

namespace Slab

/-- A positive decimal number `digits * 10 ^ exponent`. -/
structure Digits where
  digits : Nat
  exponent : Int
  deriving DecidableEq, Repr

namespace Digits

/-- The decimal without zeros at the end of its digits; `fuel` bounds how many are dropped. -/
def dropZeros : Nat → Digits → Digits
  | 0, d => d
  | fuel + 1, d =>
    if d.digits % 10 = 0 ∧ d.digits ≠ 0 then dropZeros fuel ⟨d.digits / 10, d.exponent + 1⟩ else d

/-- The largest `p` with `10 ^ p ≤ num / den`, searched for downwards from `p`. -/
def leadingPlace (num den : Nat) : Nat → Int → Int
  | 0, p => p
  | fuel + 1, p =>
    let fits := if p < 0 then den ≤ num * Nat.pow 10 p.natAbs else den * Nat.pow 10 p.natAbs ≤ num
    if fits then p else leadingPlace num den fuel (p - 1)

/-- The numbers whose nearest neighbour is `m * 2 ^ q`, in units of a quarter of `2 ^ q`: the two
ends, and whether they belong to the interval. -/
structure Interval where
  low : Nat
  high : Nat
  closed : Bool

def Interval.of (m : Nat) (q : Int) : Interval :=
  { low := if m = Nat.pow 2 52 ∧ -1074 < q then 4 * m - 1 else 4 * m - 2
    high := 4 * m + 2
    closed := m % 2 == 0 }

/-- Whether the interval holds `x / unit`. -/
def Interval.holds (i : Interval) (x unit : Nat) : Bool :=
  if i.closed then i.low * unit ≤ x && x ≤ i.high * unit else i.low * unit < x && x < i.high * unit

/-- The decimal with last place `e` that is nearest to `m * 2 ^ q`, if one of the two around it
rounds to it; of two equally near ones the larger. -/
def onGrid? (m : Nat) (q : Int) (e : Int) : Option Digits :=
  -- All lengths are scaled so that a quarter of `2 ^ q` is `unit` and the grid's mesh is `mesh`.
  let twos := q - 2
  let unit :=
    (if twos < 0 then 1 else Nat.pow 2 twos.natAbs) * (if e < 0 then Nat.pow 10 e.natAbs else 1)
  let mesh :=
    (if e < 0 then 1 else Nat.pow 10 e.natAbs) * (if twos < 0 then Nat.pow 2 twos.natAbs else 1)
  let exact := 4 * m * unit
  let below := exact / mesh
  let i := Interval.of m q
  let lower := i.holds (below * mesh) unit
  let upper := i.holds ((below + 1) * mesh) unit
  if lower && upper then
    if exact - below * mesh < (below + 1) * mesh - exact then some ⟨below, e⟩
    else some ⟨below + 1, e⟩
  else if lower then some ⟨below, e⟩
  else if upper then some ⟨below + 1, e⟩
  else none

/-- The first grid with a hit, going to smaller meshes from the last place `e`. -/
def firstHit (m : Nat) (q : Int) : Nat → Int → Digits
  | 0, e => ⟨0, e⟩
  | fuel + 1, e =>
    match onGrid? m q e with
    | some d => d
    | none => firstHit m q fuel (e - 1)

/-- The shortest decimal of the positive number `m * 2 ^ q`. Seventeen digits always suffice. -/
def shortest (m : Nat) (q : Int) : Digits :=
  let (num, den) := if q < 0 then (m, Nat.pow 2 q.natAbs) else (m * Nat.pow 2 q.natAbs, 1)
  let place :=
    leadingPlace num den 3 (((num.log2 : Int) - (den.log2 : Int) + 1) * 30103 / 100000 + 1)
  dropZeros 400 (firstHit m q 18 place)

/-- The digits as text. -/
def text (d : Digits) : List Char := (Numeral.decimal d.digits).toList

/-- The place of the first digit: the number is at least `10 ^ place` and less than ten times that.
-/
def place (d : Digits) : Int := d.exponent + (d.text.length : Int) - 1

def zeros (n : Nat) : List Char := List.replicate n '0'

/-- The integral and the fractional digits of the number. -/
def split (d : Digits) : List Char × List Char :=
  if 0 ≤ d.exponent then (d.text ++ zeros d.exponent.toNat, [])
  else
    let n := d.exponent.natAbs
    if d.text.length ≤ n then (['0'], zeros (n - d.text.length) ++ d.text)
    else (d.text.take (d.text.length - n), d.text.drop (d.text.length - n))

end Digits

namespace Binary64

/-- The sign of a text. -/
def signText (negative : Bool) : String := if negative then "-" else ""

/-- The natural number that a finite number is, if it is one below `2 ^ 53`. -/
def smallNat? (m : Nat) (q : Int) : Option Nat :=
  let n := if q < 0 then m / Nat.pow 2 q.natAbs else m * Nat.pow 2 q.natAbs
  if (if q < 0 then m % Nat.pow 2 q.natAbs == 0 else true) && n < Nat.pow 2 53 then some n else none

/-- The shortest decimal without exponent notation; a whole number has no point. -/
def plainText (x : Binary64) : String :=
  match x.view with
  | .notANumber => "NaN"
  | .infinite s => signText s ++ "inf"
  | .finite s m q =>
    match smallNat? m q with
    | some n => signText s ++ Numeral.decimal n
    | none =>
      let (whole, fraction) := (Digits.shortest m q).split
      signText s ++ String.ofList
        (if fraction.isEmpty then whole else whole ++ '.' :: fraction)

/-- The shortest decimal with an exponent below `10 ^ -4` and from `10 ^ 16` on, and with at least
one digit after the point between them. -/
def fullText (x : Binary64) : String :=
  match x.view with
  | .notANumber => "NaN"
  | .infinite s => signText s ++ "inf"
  | .finite s m q =>
    if m = 0 then signText s ++ "0.0"
    else
      let d := Digits.shortest m q
      if -4 ≤ d.place ∧ d.place < 16 then
        let (whole, fraction) := d.split
        signText s ++ String.ofList (whole ++ '.' :: (if fraction.isEmpty then ['0'] else fraction))
      else
        let tail := d.text.drop 1
        signText s ++ String.ofList
            (d.text.take 1 ++ (if tail.isEmpty then [] else '.' :: tail)) ++
          "e" ++ Numeral.signedDecimal d.place

end Binary64
end Slab
