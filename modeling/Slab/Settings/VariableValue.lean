import Slab.Number.DecimalText
import Slab.Number.Hexadecimal
import Slab.Settings.Tree
import Slab.Text.Blank

/-!
# Values in variables

What the text of an environment variable says. Texts in the notation below are values; every other
text is itself, as it stands.

* a value is a truth value, a number, a text in double quotes, a character in single quotes, a list
  in square brackets, a dictionary in braces, or a bare text, which ends at a comma or a bracket;
* blanks may surround a value and a key, but a closing bracket follows the last comma directly or
  closes one more empty bare text.

`VariableValue.read` reads a text. The readers below it take a text and give what they read and the
rest; each rest is no longer than the text, so the text's length bounds how deep lists may nest.
-/

namespace Slab.VariableValue

/-- The blanks of ASCII. -/
def isSpace (c : Char) : Bool :=
  c == ' ' || c == '\t' || c == '\n' || c == '\x0c' || c == '\r'

/-- The text without leading blanks. -/
def skipSpace (s : List Char) : List Char := s.dropWhile isSpace

/-- The characters that end a bare text. -/
def isSeparator (c : Char) : Bool :=
  c == ',' || c == '\x7b' || c == '\x7d' || c == '[' || c == ']'

/-- The characters of a bare key. -/
def isKeyChar (c : Char) : Bool := c.isAlphanum || c == '_' || c == '-'

/-- The rest after a given beginning. -/
def dropStart? : List Char → List Char → Option (List Char)
  | [], s => some s
  | _ :: _, [] => none
  | c :: p, d :: s => if c = d then dropStart? p s else none

/-- The characters that stand for themselves between double quotes. -/
def isPlain (c : Char) : Bool := c == '\t' || (32 ≤ c.toNat && c.toNat ≠ 127)

/-- The character of a letter after a backslash. -/
def escape? (c : Char) : Option Char :=
  if c = '\x22' then some '\x22'
  else if c = '\\' then some '\\'
  else if c = 'b' then some '\x08'
  else if c = 'f' then some '\x0c'
  else if c = 'n' then some '\n'
  else if c = 'r' then some '\r'
  else if c = 't' then some '\t'
  else none

/-- The text that stands between double quotes, without them; the first argument bounds its length.
-/
def unescape : Nat → List Char → Option (List Char)
  | _, [] => some []
  | 0, _ :: _ => none
  | fuel + 1, '\\' :: c :: s =>
    if c = 'u' ∨ c = 'U' then do
      let (n, s) ← Hex.read? (if c = 'u' then 4 else 8) 0 s
      let d ← Hex.char? n
      (unescape fuel s).map fun l => d :: l
    else do
      let d ← escape? c
      (unescape fuel s).map fun l => d :: l
  | fuel + 1, c :: s =>
    if c ≠ '\\' ∧ isPlain c then (unescape fuel s).map fun l => c :: l else none

/-- What stands before the closing double quote, and the rest after it. A character after a
backslash closes nothing. -/
def closing? : List Char → Option (List Char × List Char)
  | [] => none
  | '\\' :: c :: s => (closing? s).map fun p => ('\\' :: c :: p.1, p.2)
  | c :: s => if c = '\x22' then some ([], s) else (closing? s).map fun p => (c :: p.1, p.2)

/-- A text in double quotes, and the rest. -/
def quoted? : List Char → Option (String × List Char)
  | '\x22' :: s => do
    let (inner, rest) ← closing? s
    let l ← unescape inner.length inner
    some (String.ofList l, rest)
  | _ => none

/-- A key and the rest after it. -/
def key? (s : List Char) : Option (String × List Char) :=
  match s with
  | '\x22' :: _ => quoted? s
  | _ =>
    let k := s.takeWhile isKeyChar
    if k.isEmpty then none else some (String.ofList k, s.dropWhile isKeyChar)

/-- What a bare text says: a number with a point, a number without one, or a text. -/
def bare (s : List Char) : Tree :=
  let s := Text.trim s
  match (if s.contains '.' then Binary64.ofText? s else none) with
  | some x => .real x
  | none =>
    match Numeral.unsigned? UInt64.size s with
    | some n => .natural n
    | none =>
      match Numeral.signed? s with
      | some i => .signed i
      | none => .text (String.ofList s)

mutual

/-- A value with the blanks around it, and the rest. -/
def value? : Nat → List Char → Option (Tree × List Char)
  | 0, _ => none
  | fuel + 1, s => (bareValue? fuel (skipSpace s)).map fun p => (p.1, skipSpace p.2)

/-- A value without blanks around it, and the rest. -/
def bareValue? : Nat → List Char → Option (Tree × List Char)
  | 0, _ => none
  | fuel + 1, s =>
    match dropStart? "true".toList s with
    | some rest => some (.bool true, rest)
    | none =>
      match dropStart? "false".toList s with
      | some rest => some (.bool false, rest)
      | none =>
        match s with
        | '\x7b' :: rest => (entries? fuel [] rest).map fun p => (.map p.1, p.2)
        | '[' :: rest => (items? fuel rest).map fun p => (.list p.1, p.2)
        | '\x22' :: _ => (quoted? s).map fun p => (.text p.1, p.2)
        | '\x27' :: c :: '\x27' :: rest => some (.char c, rest)
        | '\x27' :: _ => none
        | _ =>
          some (bare (s.takeWhile fun c => !isSeparator c), s.dropWhile fun c => !isSeparator c)

/-- The items of a list up to its closing bracket, and the rest. -/
def items? : Nat → List Char → Option (List Tree × List Char)
  | 0, _ => none
  | fuel + 1, s =>
    match s with
    | ']' :: rest => some ([], rest)
    | _ =>
      match value? fuel s with
      | some (t, ',' :: rest) => (items? fuel rest).map fun p => (t :: p.1, p.2)
      | some (t, ']' :: rest) => some ([t], rest)
      | _ => none

/-- The entries of a dictionary up to its closing brace, and the rest. -/
def entries? : Nat → Dict String Tree → List Char → Option (Dict String Tree × List Char)
  | 0, _, _ => none
  | fuel + 1, d, s =>
    match s with
    | '\x7d' :: rest => some (d, rest)
    | _ =>
      match key? (skipSpace s) with
      | none => none
      | some (k, s) =>
        match skipSpace s with
        | '=' :: s =>
          match value? fuel s with
          | some (t, ',' :: rest) => entries? fuel (d.insert k t) rest
          | some (t, '\x7d' :: rest) => some (d.insert k t, rest)
          | _ => none
        | _ => none

end

/-- What the text of a variable says. -/
def read (s : String) : Tree :=
  let l := s.toList
  match value? (4 * l.length + 4) l with
  | some (t, []) => t
  | _ => .text s

end Slab.VariableValue
