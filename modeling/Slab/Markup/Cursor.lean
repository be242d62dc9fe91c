/-!
# Reading positions

A position in a text with the line and the column it stands in, and the classes of characters that
the structure of a document depends on.

* `isBreak`, `isGap`: characters that end a line, blanks within one;
* `isReadable`: characters that a document may hold at all;
* `Cursor`: the text ahead with the place it starts at;
* `Cursor.skip`, `Cursor.skipWhile`, `Cursor.takeBreak`: going ahead.
-/

namespace Slab.Markup

/-- Characters that end a line. -/
def isBreak (c : Char) : Bool :=
  c == '\r' || c == '\n' || c == '\x85' || c == '\u2028' || c == '\u2029'

/-- Blanks within a line. -/
def isGap (c : Char) : Bool := c == ' ' || c == '\t'

/-- Characters that a document may hold: no controls other than tab, line feed, carriage return and
next line. -/
def isReadable (c : Char) : Bool :=
  let n := c.toNat
  n == 9 || n == 10 || n == 13 || (0x20 ≤ n && n ≤ 0x7E) || n == 0x85 || (0xA0 ≤ n && n ≤ 0xD7FF) ||
    (0xE000 ≤ n && n ≤ 0xFFFD) || 0x10000 ≤ n

/-- The mark that may open a text. -/
def byteOrderMark : Char := '\ufeff'

/-- The characters of names: letters, digits, the underscore and the dash. -/
def isNameChar (c : Char) : Bool := c.isAlphanum || c == '_' || c == '-'

/-- Whether a text is empty or begins with a blank or a line break. -/
def gapOrEnd : List Char → Bool
  | [] => true
  | c :: _ => isGap c || isBreak c

/-- Whether a text is empty or begins with a line break. -/
def breakOrEnd : List Char → Bool
  | [] => true
  | c :: _ => isBreak c

/-- Whether a text begins with a blank. -/
def atGap : List Char → Bool
  | [] => false
  | c :: _ => isGap c

/-- Whether a text begins with a line break. -/
def atBreak : List Char → Bool
  | [] => false
  | c :: _ => isBreak c

/-- A place in a text. -/
structure Cursor where
  /-- The text ahead. -/
  rest : List Char
  /-- Characters before it. -/
  index : Nat := 0
  /-- Lines before its line. -/
  line : Nat := 0
  /-- Characters before it in its line. -/
  column : Nat := 0
  deriving Repr, Inhabited

namespace Cursor

/-- Past `n` characters of the line. -/
def skip (n : Nat) (c : Cursor) : Cursor :=
  { c with rest := c.rest.drop n, index := c.index + n, column := c.column + n }

/-- The characters ahead that have a property. -/
def peekWhile (p : Char → Bool) (c : Cursor) : List Char := c.rest.takeWhile p

/-- Past the characters ahead that have a property, none of which ends a line. -/
def skipWhile (p : Char → Bool) (c : Cursor) : Cursor := c.skip (c.peekWhile p).length

/-- Past the rest of the line. -/
def skipLine (c : Cursor) : Cursor := c.skipWhile fun d => !isBreak d

/-- Past `n` characters that end a line. -/
def newLine (n : Nat) (c : Cursor) : Cursor :=
  { rest := c.rest.drop n, index := c.index + n, line := c.line + 1, column := 0 }

/-- The line break ahead and the place after it. All breaks count as a line feed, except for the
line and paragraph separators, which stand for themselves. -/
def takeBreak (c : Cursor) : List Char × Cursor :=
  match c.rest with
  | '\r' :: '\n' :: _ => (['\n'], c.newLine 2)
  | d :: _ =>
    if d = '\u2028' ∨ d = '\u2029' then ([d], c.newLine 1)
    else if isBreak d then (['\n'], c.newLine 1)
    else ([], c)
  | [] => ([], c)

/-- Whether one of the two marks between documents stands ahead, at the beginning of a line. -/
def atDocumentMark (c : Cursor) : Bool :=
  c.column == 0 &&
    match c.rest with
    | '-' :: '-' :: '-' :: s => gapOrEnd s
    | '.' :: '.' :: '.' :: s => gapOrEnd s
    | _ => false

end Cursor
end Slab.Markup
