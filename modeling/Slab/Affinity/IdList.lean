import Slab.Text.Blank
import Slab.Text.Cut
import Slab.Number.Numeral

/-!
# Lists of processor and domain numbers

The notation `0-3,8,10-11` for sets of processors or domains.

* `IdList.read?`: the numbers of a text in that notation, in the order written;
* `IdList.write`: the shortest notation of an ascending list, ending in a line break.

A text is a sequence of parts between commas; empty parts count for nothing. A part is a number or
two of them around a dash, blanks are allowed around each number and around the whole text, and the
first number of a pair is at most the second.
-/

namespace Slab.IdList

/-- The first number that is too large. -/
def bound : Nat := UInt32.size

/-- One number, blanks around it allowed. -/
def number? (s : List Char) : Option Nat := Numeral.unsigned? bound (Text.trim s)

/-- The numbers from the first to the last, both included. -/
def range (first last : Nat) : List Nat := List.range' first (last + 1 - first)

/-- The numbers of one part. -/
def part? (s : List Char) : Option (List Nat) :=
  match Text.cutFirst '-' s with
  | some (a, b) =>
    match number? a, number? b with
    | some first, some last => if first ≤ last then some (range first last) else none
    | _, _ => none
  | none => (number? s).map fun n => [n]

/-- The parts of a text. -/
def parts (s : List Char) : List (List Char) :=
  (Text.pieces ',' (Text.trim s)).filter fun p => !p.isEmpty

/-- The numbers of all parts, if every part is well formed. -/
def concat? : List (List Char) → Option (List Nat)
  | [] => some []
  | p :: ps =>
    match part? p, concat? ps with
    | some a, some b => some (a ++ b)
    | _, _ => none

/-- The numbers that a text lists. -/
def read? (s : String) : Option (List Nat) := concat? (parts s.toList)

/-- The maximal runs of consecutive numbers in a list, each as its first and last number. -/
def runs : List Nat → List (Nat × Nat)
  | [] => []
  | n :: ns =>
    match runs ns with
    | (a, b) :: rs => if a = n + 1 then (n, b) :: rs else (n, n) :: (a, b) :: rs
    | [] => [(n, n)]

/-- A run as text. -/
def writeRun (r : Nat × Nat) : List Char :=
  if r.1 = r.2 then (Numeral.decimal r.1).toList
  else (Numeral.decimal r.1).toList ++ '-' :: (Numeral.decimal r.2).toList

/-- The notation of an ascending list. -/
def write (ids : List Nat) : String :=
  String.ofList (Text.joinWith ',' ((runs ids).map writeRun) ++ ['\n'])

end Slab.IdList
