import Slab.Markup.Cursor
import Slab.Number.Hexadecimal

/-!
# Texts in lines

Texts within the lines of a document: between quotes, or bare up to a character that ends them.
Where such a text goes over several lines, a line break becomes a space, and empty lines become the
breaks they are.

* `Gap`, `gap?`: blanks and breaks between two words, and what becomes of them;
* `quoted?`: the text after an opening quote;
* `bare?`: the text that no quote announces.
-/

namespace Slab.Markup

/-- Blanks and line breaks between two words. -/
structure Gap where
  /-- The blanks, as long as there is no line break. -/
  blanks : List Char := []
  /-- The first line break. -/
  first : List Char := []
  /-- The line breaks after it. -/
  more : List Char := []
  /-- Whether there is a line break. -/
  broken : Bool := false
  deriving Repr

/-- What becomes of a gap. -/
def Gap.text (g : Gap) : List Char :=
  if !g.broken then g.blanks
  else if g.first.head? = some '\n' then (if g.more.isEmpty then [' '] else g.more)
  else g.first ++ g.more

/-- The gap ahead, continuing one. A tab before the column `limit` of a later line is an error. -/
def gap? (limit : Int) : Nat → Gap → Cursor → Option (Gap × Cursor)
  | 0, _, _ => none
  | fuel + 1, g, c =>
    match c.rest with
    | [] => some (g, c)
    | d :: _ =>
      if isGap d then
        if g.broken ∧ (c.column : Int) < limit ∧ d = '\t' then none
        else
          gap? limit fuel (if g.broken then g else { g with blanks := g.blanks ++ [d] }) (c.skip 1)
      else if isBreak d then
        let (b, next) := c.takeBreak
        gap? limit fuel
          (if g.broken then { g with more := g.more ++ b }
           else { g with blanks := [], first := b, broken := true }) next
      else some (g, c)

/-- The character of a letter after a backslash that needs no digits. -/
def escape? (c : Char) : Option Char :=
  if c = '0' then some '\x00'
  else if c = 'a' then some '\x07'
  else if c = 'b' then some '\x08'
  else if c = 't' ∨ c = '\t' then some '\t'
  else if c = 'n' then some '\n'
  else if c = 'v' then some '\x0b'
  else if c = 'f' then some '\x0c'
  else if c = 'r' then some '\r'
  else if c = 'e' then some '\x1b'
  else if c = ' ' ∨ c = '\x22' ∨ c = '/' ∨ c = '\x5c' then some c
  else if c = 'N' then some '\x85'
  else if c = '_' then some '\xa0'
  else if c = 'L' then some '\u2028'
  else if c = 'P' then some '\u2029'
  else none

/-- How many digits follow a letter after a backslash. -/
def escapeDigits? (c : Char) : Option Nat :=
  if c = 'x' then some 2 else if c = 'u' then some 4 else if c = 'U' then some 8 else none

/-- The character written after a backslash, and how many characters write it. -/
def escaped? : List Char → Option (Char × Nat)
  | [] => none
  | c :: s =>
    match escapeDigits? c with
    | some count => do
      let (n, _) ← Hex.read? count 0 s
      let d ← Hex.char? n
      some (d, count + 1)
    | none => (escape? c).map fun d => (d, 1)

/-- The quote that opens and closes a text. -/
def quote (single : Bool) : Char := if single then '\x27' else '\x22'

/-- The characters of a quoted text up to its quote, a blank or a line break; and whether a
backslash has taken a line break away. -/
def quotedWord? (single : Bool) : Nat → List Char → Cursor → Option (List Char × Bool × Cursor)
  | 0, _, _ => none
  | fuel + 1, acc, c =>
    match c.rest with
    | [] => some (acc, false, c)
    | d :: s =>
      if isGap d || isBreak d then some (acc, false, c)
      else if single ∧ d = '\x27' ∧ s.head? = some '\x27' then
        quotedWord? single fuel (acc ++ [d]) (c.skip 2)
      else if d = quote single then some (acc, false, c)
      else if single = false ∧ d = '\x5c' then
        if atBreak s then some (acc, true, (c.skip 1).takeBreak.2)
        else
          match escaped? s with
          | none => none
          | some (e, n) => quotedWord? single fuel (acc ++ [e]) (c.skip (n + 1))
      else quotedWord? single fuel (acc ++ [d]) (c.skip 1)

/-- The text up to its closing quote. A mark between documents within it is an error. -/
def quotedText? (single : Bool) : Nat → List Char → Cursor → Option (List Char × Cursor)
  | 0, _, _ => none
  | fuel + 1, acc, c =>
    if c.atDocumentMark ∨ c.rest = [] then none
    else
      match quotedWord? single (c.rest.length + 1) acc c with
      | none => none
      | some (acc, broken, c) =>
        if c.rest.head? = some (quote single) then some (acc, c.skip 1)
        else
          match gap? 0 (c.rest.length + 1) { broken } c with
          | none => none
          | some (g, c) => quotedText? single fuel (acc ++ g.text) c

/-- The text after its opening quote. -/
def quoted? (single : Bool) (c : Cursor) : Option (List Char × Cursor) :=
  quotedText? single (c.rest.length + 1) [] c

/-- The characters that end a bare text within brackets. -/
def isFlowMark (c : Char) : Bool :=
  c == ',' || c == '[' || c == ']' || c == '\x7b' || c == '\x7d'

/-- The characters of a bare text up to a blank, a line break, a colon before one, or a bracket or
comma that ends it. Within brackets a colon before one of those or a question mark is an error. -/
def bareWord? (inFlow : Bool) : List Char → Option (List Char)
  | [] => some []
  | c :: s =>
    if isGap c || isBreak c then some []
    else if c = ':' then
      if inFlow ∧ (s.head?.any fun d => isFlowMark d || d == '?') then none
      else if gapOrEnd s then some []
      else (bareWord? inFlow s).map fun l => c :: l
    else if inFlow && isFlowMark c then some []
    else (bareWord? inFlow s).map fun l => c :: l

/-- The bare text from here on, after a text so far and a gap: the whole text, and whether a line
break follows it. Its further lines begin at the column `indent` or later. -/
def bareText? (inFlow : Bool) (indent : Int) :
    Nat → List Char → Gap → Cursor → Option (List Char × Bool × Cursor)
  | 0, _, _, _ => none
  | fuel + 1, acc, g, c =>
    if c.atDocumentMark ∨ c.rest.head? = some '#' then some (acc, g.broken, c)
    else
      match bareWord? inFlow c.rest with
      | none => none
      | some [] => some (acc, g.broken, c)
      | some word =>
        let acc := acc ++ g.text ++ word
        let c := c.skip word.length
        if atGap c.rest || atBreak c.rest then
          match gap? indent (c.rest.length + 1) {} c with
          | none => none
          | some (g, c) =>
            if inFlow = false ∧ (c.column : Int) < indent then some (acc, g.broken, c)
            else bareText? inFlow indent fuel acc g c
        else some (acc, false, c)

/-- The bare text ahead, and whether a line break follows it. -/
def bare? (inFlow : Bool) (indent : Int) (c : Cursor) : Option (List Char × Bool × Cursor) :=
  bareText? inFlow indent (c.rest.length + 1) [] {} c

end Slab.Markup
