import Slab.Number.DecimalText
import Slab.Number.Hexadecimal
import Slab.Settings.Tree

/-!
# What a text in a document means

A bare text is nothing, a truth value, a number or itself, whatever it looks like first; a text with
a tag of the common ones is what the tag says or an error.

* `truth?`, `isNothing`, `integer?`, `real?`: the looks, each by itself;
* `meaning`: what a bare text means;
* `tagged?`: what a text with a tag means.
-/

namespace Slab.Markup.Scalar

/-- The words for nothing. -/
def isNothing (s : List Char) : Bool :=
  ["null", "Null", "NULL", "~"].any fun w => w.toList == s

/-- The words for the truth values. -/
def truth? (s : List Char) : Option Bool :=
  if ["true", "True", "TRUE"].any fun w => w.toList == s then some true
  else if ["false", "False", "FALSE"].any fun w => w.toList == s then some false
  else none

/-- The value of digits in base `base`, at least one, after `n`. -/
def digits? (base : Nat) : Option Nat → List Char → Option Nat
  | n, [] => n
  | n, c :: s =>
    match (Hex.digit? c).filter (· < base) with
    | none => none
    | some d => digits? base (some (n.getD 0 * base + d)) s

/-- Digits in base sixteen, eight or two behind the mark of the base. -/
def based? : List Char → Option Nat
  | '0' :: 'x' :: s => digits? 16 none s
  | '0' :: 'o' :: s => digits? 8 none s
  | '0' :: 'b' :: s => digits? 2 none s
  | _ => none

/-- Digits in base ten that do not begin with a needless zero. -/
def plain? : List Char → Option Nat
  | '0' :: c :: s => if (c :: s).all Numeral.isDigit then none else Numeral.natural? ('0' :: c :: s)
  | s => Numeral.natural? s

/-- Digits in any base. -/
def unsigned? (s : List Char) : Option Nat := (based? s).or (plain? s)

/-- A number: digits, perhaps after a sign. Numbers are less than `2 ^ 128`, and at least `-2 ^
127`. -/
def integer? (s : List Char) : Option Tree :=
  match s with
  | '-' :: t =>
    (unsigned? t).bind fun n => if n ≤ Nat.pow 2 127 then some (.signed (-(n : Int))) else none
  | _ =>
    (unsigned? (Numeral.dropPlus s)).bind fun n =>
      if n < Nat.pow 2 128 then some (.natural n) else none

/-- The words for infinity, and for what is no number. -/
def special? (s : List Char) : Option Binary64 :=
  let words (l : List String) : Bool := l.any fun w => w.toList == s
  if words [".inf", ".Inf", ".INF", "+.inf", "+.Inf", "+.INF"] then some (Binary64.infinity false)
  else if words ["-.inf", "-.Inf", "-.INF"] then some (Binary64.infinity true)
  else if words [".nan", ".NaN", ".NAN"] then some Binary64.nan
  else none

/-- A number with a point or an exponent, if it is not too large; or one of the words. -/
def real? (s : List Char) : Option Binary64 :=
  match special? s with
  | some x => some x
  | none => (Binary64.ofText? s).filter Binary64.isFinite

/-- Digits that begin with a needless zero, perhaps after a sign. -/
def hasNeedlessZero (s : List Char) : Bool :=
  let t := match s with
    | '-' :: t => t
    | _ => Numeral.dropPlus s
  match t with
  | '0' :: c :: t => (c :: t).all Numeral.isDigit
  | _ => false

/-- The text itself. -/
def literal (s : List Char) : Tree := .text (String.ofList s)

/-- What a bare text means. -/
def meaning (s : List Char) : Tree :=
  if s.isEmpty || isNothing s then .null
  else
    match truth? s with
    | some b => .bool b
    | none =>
      match integer? s with
      | some t => t
      | none =>
        match (if hasNeedlessZero s then none else real? s) with
        | some x => .real x
        | none => literal s

/-- The common tags. -/
def commonTag (name : String) : List Char := "tag:yaml.org,2002:".toList ++ name.toList

/-- What a text with a tag means. Tags that begin with an exclamation mark have no meaning here, and
those that are not common change nothing. -/
def tagged? (tag s : List Char) : Option Tree :=
  if tag.head? = some '!' then none
  else if tag = commonTag "bool" then (truth? s).map .bool
  else if tag = commonTag "int" then integer? s
  else if tag = commonTag "float" then (real? s).map .real
  else if tag = commonTag "null" then (if isNothing s then some .null else none)
  else some (literal s)

end Slab.Markup.Scalar
