import Slab.Markup.Cursor
import Slab.Number.Hexadecimal
import Slab.Number.Numeral

/-!
# Names, tags and directives

What may stand before a value, to name it or to say of which type it is, and before a document, to
say what tags stand for.

* `name?`: the name after an ampersand or an asterisk;
* `tag?`: a tag, as the handle that stands for its beginning and the rest;
* `directive?`: a line before a document.
-/

namespace Slab.Markup

/-- The characters that may follow a name directly. -/
def endsName (s : List Char) : Bool :=
  gapOrEnd s ||
    match s with
    | [] => true
    | c :: _ =>
      c == '?' || c == ':' || c == ',' || c == ']' || c == '\x7d' || c == '%' || c == '@' ||
        c == '\x60'

/-- The name after the character that announces it. -/
def name? (c : Cursor) : Option (String × Cursor) :=
  let n := c.peekWhile isNameChar
  let c := c.skip n.length
  if n.isEmpty ∨ endsName c.rest = false then none else some (String.ofList n, c)

/-- The characters of a tag. Those of lists are among them only between angle brackets. -/
def isTagChar (verbatim : Bool) (c : Char) : Bool :=
  isNameChar c || c == ';' || c == '/' || c == '?' || c == ':' || c == '@' || c == '&' ||
    c == '=' || c == '+' || c == '$' || c == '.' || c == '!' || c == '~' || c == '*' ||
    c == '\x27' || c == '(' || c == ')' || (verbatim && (c == ',' || c == '[' || c == ']'))

/-- A byte written as a percent sign and two digits. -/
def octet? : List Char → Option (Nat × List Char)
  | '%' :: s => Hex.read? 2 0 s
  | _ => none

/-- Bytes that continue a character, each adding six bits to `n`. -/
def continuation? : Nat → Nat → List Char → Option (Nat × List Char)
  | 0, n, s => some (n, s)
  | count + 1, n, s =>
    match octet? s with
    | none => none
    | some (b, s) => if b / 64 = 2 then continuation? count (n * 64 + b % 64) s else none

/-- A character written byte by byte, each byte as a percent sign and two digits: the character, how
many bytes write it, and the rest. -/
def percent? (s : List Char) : Option (Char × Nat × List Char) :=
  match octet? s with
  | none => none
  | some (b, s) =>
    let width :=
      if b < 0x80 then some (0, b)
      else if b / 32 = 6 then some (1, b % 32)
      else if b / 16 = 14 then some (2, b % 16)
      else if b / 8 = 30 then some (3, b % 8)
      else none
    match width with
    | none => none
    | some (more, n) => (continuation? more n s).map fun p => (Char.ofNat p.1, more + 1, p.2)

/-- The characters of a tag from here on. -/
def tagText? (verbatim : Bool) : Nat → Cursor → Option (List Char × Cursor)
  | 0, _ => none
  | fuel + 1, c =>
    match c.rest with
    | [] => some ([], c)
    | d :: _ =>
      if d = '%' then
        match percent? c.rest with
        | none => none
        | some (e, n, _) => (tagText? verbatim fuel (c.skip (3 * n))).map fun p => (e :: p.1, p.2)
      else if isTagChar verbatim d then
        (tagText? verbatim fuel (c.skip 1)).map fun p => (d :: p.1, p.2)
      else some ([], c)

/-- The characters of a tag from here on, at least one if there must be one. -/
def tagRest? (verbatim needed : Bool) (c : Cursor) : Option (List Char × Cursor) :=
  match tagText? verbatim (c.rest.length + 1) c with
  | none => none
  | some (l, c) => if needed && l.isEmpty then none else some (l, c)

/-- The beginning of a tag: an exclamation mark, a name, and perhaps another exclamation mark. -/
def handle? (c : Cursor) : Option (List Char × Cursor) :=
  match c.rest with
  | '!' :: _ =>
    let c := c.skip 1
    let n := c.peekWhile isNameChar
    let c := c.skip n.length
    match c.rest with
    | '!' :: _ => some ('!' :: n ++ ['!'], c.skip 1)
    | _ => some ('!' :: n, c)
  | _ => none

/-- A tag as the handle for its beginning and the rest. A tag in angle brackets has the empty
handle, as has the exclamation mark alone. -/
def shortTag? (c : Cursor) : Option (List Char × List Char × Cursor) := do
  let (h, c) ← handle? c
  if 1 < h.length ∧ h.getLast? = some '!' then
    let (l, c) ← tagRest? false true c
    some (h, l, c)
  else
    let (l, c) ← tagRest? false false c
    let l := h.drop 1 ++ l
    if l.isEmpty then some ([], ['!'], c) else some (['!'], l, c)

/-- A tag and what must follow it: a blank, or a comma within brackets. -/
def tag? (inFlow : Bool) (c : Cursor) : Option (List Char × List Char × Cursor) := do
  let (h, l, c) ←
    match c.rest with
    | '!' :: '<' :: _ =>
      match tagRest? true true (c.skip 2) with
      | some (l, c) => if c.rest.head? = some '>' then some ([], l, c.skip 1) else none
      | none => none
    | _ => shortTag? c
  if gapOrEnd c.rest || (inFlow && c.rest.head? == some ',') then some (h, l, c) else none

/-- A line before a document. -/
inductive Directive
  | version (major minor : Nat)
  /-- What a handle stands for. -/
  | tag (handle start : List Char)
  deriving Repr

/-- A number of at most nine digits. -/
def versionNumber? (c : Cursor) : Option (Nat × Cursor) :=
  let d := c.peekWhile Numeral.isDigit
  if d.isEmpty ∨ 9 < d.length then none else some (Numeral.value 0 d, c.skip d.length)

/-- The rest of a directive after its name. -/
def directiveValue? (name : List Char) (c : Cursor) : Option (Directive × Cursor) := do
  if name = "YAML".toList then
    let (major, c) ← versionNumber? (c.skipWhile isGap)
    if c.rest.head? = some '.' then
      let (minor, c) ← versionNumber? (c.skip 1)
      some (.version major minor, c)
    else none
  else if name = "TAG".toList then
    let (h, c) ← handle? (c.skipWhile isGap)
    if h ≠ ['!'] ∧ (h.length ≤ 1 ∨ h.getLast? ≠ some '!') then none
    else if !atGap c.rest then none
    else
      let (l, c) ← tagRest? true true (c.skipWhile isGap)
      if gapOrEnd c.rest then some (.tag h l, c) else none
  else none

/-- A directive after its percent sign, and past the end of its line. -/
def directive? (c : Cursor) : Option (Directive × Cursor) := do
  let name := c.peekWhile isNameChar
  let c := c.skip name.length
  if name.isEmpty ∨ gapOrEnd c.rest = false then none
  else
    let (d, c) ← directiveValue? name c
    let c := c.skipWhile isGap
    let c := match c.rest with
      | '#' :: _ => c.skipLine
      | _ => c
    if breakOrEnd c.rest then some (d, c.takeBreak.2) else none

end Slab.Markup
