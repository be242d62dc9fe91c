import Slab.Markup.Block
import Slab.Markup.Inline
import Slab.Markup.Property

/-!
# Tokens of a document

A text as a list of tokens. What is indented more deeply than its surroundings opens a block, which
ends where the indentation ends; inside brackets indentation means nothing. A text that may turn out
to be the key of a mapping is remembered with its place among the tokens, and the key's token is put
there once a colon follows it on the same line.

* `Token`: the tokens;
* `Scan`: the tokens so far and what is remembered of them;
* `Scan.next?`: the next token, with the ends of blocks before it;
* `Token.scan?`: all tokens of a text.
-/

namespace Slab.Markup

/-- The pieces of a document. -/
inductive Token
  | directive (d : Directive)
  | documentStart
  | documentEnd
  | sequenceBlock
  | mappingBlock
  | blockEnd
  | listOpen
  | listClose
  | mapOpen
  | mapClose
  | dash
  | comma
  | key
  | value
  | reference (name : String)
  | anchor (name : String)
  | tag (handle rest : List Char)
  /-- A text, and whether it stands there bare. -/
  | scalar (text : List Char) (isBare : Bool)
  deriving Repr

/-- A text that may turn out to be a key. -/
structure Candidate where
  /-- Whether nothing else can stand there. -/
  required : Bool
  /-- How many tokens stand before it. -/
  token : Nat
  index : Nat
  line : Nat
  column : Nat
  deriving Repr

/-- The tokens so far and what is remembered of them. -/
structure Scan where
  cursor : Cursor
  /-- The tokens, the last one first. -/
  tokens : List Token := []
  /-- The column of the innermost block; -1 outside all blocks. -/
  indent : Int := -1
  /-- The columns of the blocks around it. -/
  outer : List Int := []
  /-- Whether a key may begin here. -/
  keyAllowed : Bool := true
  /-- The candidate of the innermost bracket, or of the blocks. -/
  candidate : Option Candidate := none
  /-- The candidates outside the innermost bracket, one for each bracket. -/
  others : List (Option Candidate) := []
  deriving Repr

namespace Scan

/-- Whether the place is inside brackets. -/
def inFlow (s : Scan) : Bool := !s.others.isEmpty

def push (s : Scan) (t : Token) : Scan := { s with tokens := t :: s.tokens }

/-- Puts a token behind the first `n`. -/
def insert (s : Scan) (n : Nat) (t : Token) : Scan :=
  let late := s.tokens.length - n
  { s with tokens := s.tokens.take late ++ t :: s.tokens.drop late }

/-- Past blanks, comments and line breaks. A tab is a blank only where no key may begin. In blocks,
a key may begin on every new line. A byte order mark in front of the text is passed over too, and
takes up a column. -/
def skipGaps : Nat → Scan → Scan
  | 0, s => s
  | fuel + 1, s =>
    let c := s.cursor
    let c := if c.index = 0 ∧ c.rest.head? = some byteOrderMark then c.skip 1 else c
    let c := c.skipWhile fun d => d == ' ' || ((s.inFlow || !s.keyAllowed) && d == '\t')
    let c := if c.rest.head? = some '#' then c.skipLine else c
    if atBreak c.rest then
      skipGaps fuel
        { s with cursor := c.takeBreak.2, keyAllowed := if s.inFlow then s.keyAllowed else true }
    else { s with cursor := c }

/-- Whether a candidate lies too far back: on an earlier line or more than 1024 characters away. -/
def isStale (c : Cursor) (k : Candidate) : Bool := k.line < c.line || k.index + 1024 < c.index

/-- The candidate, unless it lies too far back; an error if nothing else can stand there. -/
def refresh? (c : Cursor) : Option Candidate → Option (Option Candidate)
  | none => some none
  | some k => if isStale c k then (if k.required then none else some none) else some (some k)

/-- All candidates, without those that lie too far back. -/
def refreshAll? (s : Scan) : Option Scan := do
  let candidate ← refresh? s.cursor s.candidate
  let others ← s.others.mapM (refresh? s.cursor)
  some { s with candidate, others }

/-- Gives the candidate up; an error if nothing else can stand there. -/
def dropCandidate? (s : Scan) : Option Scan :=
  match s.candidate with
  | some k => if k.required then none else some { s with candidate := none }
  | none => some s

/-- Remembers that what comes next may be a key, where a key may begin. -/
def saveCandidate? (s : Scan) : Option Scan :=
  if s.keyAllowed then
    (dropCandidate? s).map fun s =>
      { s with
        candidate := some
          { required := !s.inFlow && s.indent == s.cursor.column
            token := s.tokens.length
            index := s.cursor.index
            line := s.cursor.line
            column := s.cursor.column } }
  else some s

/-- Ends the blocks that begin to the right of a column. -/
def unroll (column : Int) : List Int → Scan → Scan
  | [], s => s
  | o :: outer, s =>
    if column < s.indent then
      unroll column outer { s with tokens := .blockEnd :: s.tokens, indent := o, outer := outer }
    else s

/-- Ends the blocks that begin to the right of a column, outside brackets. -/
def closeBlocks (s : Scan) (column : Int) : Scan := if s.inFlow then s else unroll column s.outer s

/-- Opens a block at a column to the right of the innermost one, with its token behind the first `n`
tokens. -/
def openBlock (s : Scan) (column : Nat) (n : Nat) (t : Token) : Scan :=
  if !s.inFlow && s.indent < column then
    { (s.insert n t) with indent := column, outer := s.indent :: s.outer }
  else s

/-- The token of `n` characters. -/
def take (s : Scan) (n : Nat) (t : Token) : Scan :=
  { s with cursor := s.cursor.skip n, tokens := t :: s.tokens }

/-- An opening bracket. -/
def open? (s : Scan) (t : Token) : Option Scan :=
  (saveCandidate? s).map fun s =>
    { (s.take 1 t) with
      keyAllowed := true, candidate := none, others := s.candidate :: s.others }

/-- A closing bracket. -/
def close? (s : Scan) (t : Token) : Option Scan :=
  (dropCandidate? s).map fun s =>
    let s := { (s.take 1 t) with keyAllowed := false }
    match s.others with
    | [] => s
    | k :: others => { s with candidate := k, others }

/-- A comma. -/
def comma? (s : Scan) : Option Scan :=
  (dropCandidate? s).map fun s => { (s.take 1 .comma) with keyAllowed := true }

/-- A dash before an item. -/
def dash? (s : Scan) : Option Scan :=
  if !s.inFlow && !s.keyAllowed then none
  else
    (dropCandidate? (s.openBlock s.cursor.column s.tokens.length .sequenceBlock)).map fun s =>
      { (s.take 1 .dash) with keyAllowed := true }

/-- A question mark before a key. -/
def key? (s : Scan) : Option Scan :=
  if !s.inFlow && !s.keyAllowed then none
  else
    (dropCandidate? (s.openBlock s.cursor.column s.tokens.length .mappingBlock)).map fun s =>
      { (s.take 1 .key) with keyAllowed := !s.inFlow }

/-- A colon before a value. -/
def value? (s : Scan) : Option Scan :=
  match s.candidate with
  | some k =>
    let s := (s.insert k.token .key).openBlock k.column k.token .mappingBlock
    some { (s.take 1 .value) with candidate := none, keyAllowed := false }
  | none =>
    if !s.inFlow && !s.keyAllowed then none
    else
      let s := s.openBlock s.cursor.column s.tokens.length .mappingBlock
      some { (s.take 1 .value) with keyAllowed := !s.inFlow }

/-- A directive, in a place of its own. -/
def directive? (s : Scan) : Option Scan := do
  let s ← dropCandidate? (s.closeBlocks (-1))
  let (d, c) ← Markup.directive? (s.cursor.skip 1)
  some { s with cursor := c, tokens := .directive d :: s.tokens, keyAllowed := false }

/-- A mark between documents. -/
def documentMark? (s : Scan) : Option Scan :=
  (dropCandidate? (s.closeBlocks (-1))).map fun s =>
    let t := if s.cursor.rest.head? = some '-' then .documentStart else .documentEnd
    { (s.take 3 t) with keyAllowed := false }

/-- A name or a reference to one. -/
def named? (s : Scan) (t : String → Token) : Option Scan := do
  let s ← saveCandidate? s
  let (n, c) ← name? (s.cursor.skip 1)
  some { s with cursor := c, tokens := t n :: s.tokens, keyAllowed := false }

/-- A tag. -/
def tag? (s : Scan) : Option Scan := do
  let s ← saveCandidate? s
  let (h, l, c) ← Markup.tag? s.inFlow s.cursor
  some { s with cursor := c, tokens := .tag h l :: s.tokens, keyAllowed := false }

/-- A block text. -/
def block? (s : Scan) (folded : Bool) : Option Scan := do
  let s ← dropCandidate? s
  let (l, c) ← Block.read? folded s.indent (s.cursor.skip 1)
  some { s with cursor := c, tokens := .scalar l false :: s.tokens, keyAllowed := true }

/-- A text between quotes. -/
def quoted? (s : Scan) (single : Bool) : Option Scan := do
  let s ← saveCandidate? s
  let (l, c) ← Markup.quoted? single (s.cursor.skip 1)
  some { s with cursor := c, tokens := .scalar l false :: s.tokens, keyAllowed := false }

/-- A bare text. -/
def bare? (s : Scan) : Option Scan := do
  let s ← saveCandidate? s
  let (l, broken, c) ← Markup.bare? s.inFlow (s.indent + 1) s.cursor
  some { s with cursor := c, tokens := .scalar l true :: s.tokens, keyAllowed := broken }

/-- The characters that no bare text begins with. -/
def isIndicator (c : Char) : Bool :=
  c == '-' || c == '?' || c == ':' || c == ',' || c == '[' || c == ']' || c == '\x7b' ||
    c == '\x7d' || c == '#' || c == '&' || c == '*' || c == '!' || c == '|' || c == '>' ||
    c == '\x27' || c == '\x22' || c == '%' || c == '@' || c == '\x60'

/-- Whether a bare text begins with `c` before `rest`: a dash, a question mark and a colon begin one
where they are nothing else. -/
def startsBare (inFlow : Bool) (c : Char) (rest : List Char) : Bool :=
  !(isGap c || isBreak c || isIndicator c) || (c == '-' && !atGap rest) ||
    (!inFlow && (c == '?' || c == ':') && !gapOrEnd rest)

/-- The token that begins with `c` before `rest`. -/
def token? (s : Scan) (c : Char) (rest : List Char) : Option Scan :=
  if c = '%' ∧ s.cursor.column = 0 then s.directive?
  else if s.cursor.atDocumentMark then s.documentMark?
  else if c = '[' then s.open? .listOpen
  else if c = '\x7b' then s.open? .mapOpen
  else if c = ']' then s.close? .listClose
  else if c = '\x7d' then s.close? .mapClose
  else if c = ',' then s.comma?
  else if c = '-' ∧ gapOrEnd rest then s.dash?
  else if c = '?' ∧ (s.inFlow ∨ gapOrEnd rest) then s.key?
  else if c = ':' ∧ (s.inFlow ∨ gapOrEnd rest) then s.value?
  else if c = '*' then s.named? .reference
  else if c = '&' then s.named? .anchor
  else if c = '!' then s.tag?
  else if c = '|' ∧ s.inFlow = false then s.block? false
  else if c = '>' ∧ s.inFlow = false then s.block? true
  else if c = '\x27' then s.quoted? true
  else if c = '\x22' then s.quoted? false
  else if startsBare s.inFlow c rest then s.bare?
  else none

/-- The end of the text, which ends all blocks. -/
def finish? (s : Scan) : Option Scan :=
  let c := s.cursor
  let c := if c.column = 0 then c else { c with line := c.line + 1, column := 0 }
  dropCandidate? ({ s with cursor := c }.closeBlocks (-1))

/-- The tokens up to the end of the text. -/
def run? : Nat → Scan → Option Scan
  | 0, _ => none
  | fuel + 1, s =>
    match refreshAll? (skipGaps (s.cursor.rest.length + 1) s) with
    | none => none
    | some s =>
      let s := s.closeBlocks s.cursor.column
      match s.cursor.rest with
      | [] => s.finish?
      | c :: rest => (s.token? c rest).bind (run? fuel)

end Scan

/-- The tokens of a text. Every token has a character of the text, so the text's length bounds their
number. -/
def Token.scan? (text : List Char) : Option (List Token) :=
  if text.all isReadable then
    (Scan.run? (text.length + 1) { cursor := { rest := text } }).map fun s => s.tokens.reverse
  else none

end Slab.Markup
