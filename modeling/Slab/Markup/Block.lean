import Slab.Markup.Cursor
import Slab.Number.Numeral

/-!
# Block texts

Texts of indented lines after a header, kept line by line or folded into paragraphs.

* `Block.header?`: how deep the lines are indented and what becomes of the breaks at the end;
* `Block.read?`: the text after the character that announces it.
-/

namespace Slab.Markup.Block

/-- What becomes of the line breaks at the end of a text. -/
inductive Ending
  /-- All go. -/
  | strip
  /-- One stays. -/
  | clip
  /-- All stay. -/
  | keep
  deriving DecidableEq, Repr

/-- The sign for what becomes of the line breaks. -/
def ending? (c : Char) : Option Ending :=
  if c = '+' then some .keep else if c = '-' then some .strip else none

/-- The digits for a depth: not zero. -/
def depth? (c : Char) : Option Nat := (Numeral.digit? c).filter (· ≠ 0)

/-- A header: a sign and a digit, each at most once and in any order. The depth is zero where no
digit gives it. A digit zero is an error. -/
def header? (c : Cursor) : Option (Ending × Nat × Cursor) :=
  match c.rest with
  | d :: s =>
    match ending? d with
    | some e =>
      match s with
      | g :: _ =>
        if Numeral.isDigit g then (depth? g).map fun n => (e, n, c.skip 2)
        else some (e, 0, c.skip 1)
      | [] => some (e, 0, c.skip 1)
    | none =>
      if Numeral.isDigit d then
        (depth? d).map fun n =>
          match s with
          | g :: _ =>
            match ending? g with
            | some e => (e, n, c.skip 2)
            | none => (.clip, n, c.skip 1)
          | [] => (.clip, n, c.skip 1)
      else some (.clip, 0, c)
  | [] => some (.clip, 0, c)

/-- Past blanks and a comment to the end of the line; anything else there is an error. -/
def endLine? (c : Cursor) : Option Cursor :=
  let c := c.skipWhile isGap
  let c := match c.rest with
    | '#' :: _ => c.skipLine
    | _ => c
  if breakOrEnd c.rest then some c.takeBreak.2 else none

/-- Past spaces, but not beyond the column `indent` where that is known (not zero). -/
def skipIndent (indent : Nat) (c : Cursor) : Cursor :=
  let n := (c.peekWhile (· == ' ')).length
  if indent = 0 then c.skip n else c.skip (min n (indent - c.column))

/-- Past empty lines: their line breaks, and the largest column met. A tab among the blanks that
indent a line is an error. -/
def emptyLines? : Nat → Nat → Nat → List Char → Cursor → Option (Nat × List Char × Cursor)
  | 0, _, _, _, _ => none
  | fuel + 1, indent, widest, breaks, c =>
    let c := skipIndent indent c
    let widest := max widest c.column
    if (indent = 0 ∨ c.column < indent) ∧ c.rest.head? = some '\t' then none
    else if atBreak c.rest then
      let (b, c) := c.takeBreak
      emptyLines? fuel indent widest (breaks ++ b) c
    else some (widest, breaks, c)

/-- The lines read so far. -/
structure Lines where
  text : List Char
  /-- The break that ended the last line. -/
  ended : List Char
  /-- The breaks of the empty lines after it. -/
  empty : List Char
  /-- Whether the last line begins with a blank. -/
  indented : Bool

/-- The lines at the column `indent`. In a folded text a break between two lines that begin with no
blank becomes a space, unless empty lines follow it. -/
def lines? (folded : Bool) (indent : Nat) : Nat → Lines → Cursor → Option (Lines × Cursor)
  | 0, _, _ => none
  | fuel + 1, l, c =>
    if c.column = indent ∧ c.rest ≠ [] then
      let blank := atGap c.rest
      let joint :=
        if folded ∧ l.ended.head? = some '\n' ∧ ¬ l.indented ∧ ¬ blank then
          if l.empty.isEmpty then [' '] else []
        else l.ended
      let line := c.peekWhile fun d => !isBreak d
      let (ended, next) := (c.skip line.length).takeBreak
      match emptyLines? (next.rest.length + 1) indent 0 [] next with
      | none => none
      | some (_, empty, next) =>
        lines? folded indent fuel
          { text := l.text ++ joint ++ l.empty ++ line, ended, empty, indented := blank } next
    else some (l, c)

/-- The text after its announcement, with the lines of the surrounding block at column `outer`. -/
def read? (folded : Bool) (outer : Int) (c : Cursor) : Option (List Char × Cursor) := do
  let (ending, depth, c) ← header? c
  let c ← endLine? c
  let given := if depth = 0 then 0 else if 0 ≤ outer then outer.toNat + depth else depth
  let (widest, empty, c) ← emptyLines? (c.rest.length + 1) given 0 [] c
  let indent := if given = 0 then max (max widest (outer + 1).toNat) 1 else given
  let (l, c) ← lines? folded indent (c.rest.length + 1) ⟨[], [], empty, false⟩ c
  let text := match ending with
    | .strip => l.text
    | .clip => l.text ++ l.ended
    | .keep => l.text ++ l.ended ++ l.empty
  some (text, c)

end Slab.Markup.Block
