/-!
# Patterns of characters

What a text is searched for: words and choices of them in any letter case, and the two ends of the
text. The letters of a pattern are letters of ASCII.

* `Pattern`, `Pattern.word`, `Pattern.oneOf`: patterns, the pattern of a word, and of a choice;
* `fold`: a character without regard to its letter case;
* `Pattern.after`: where a part of a text that fits a pattern ends;
* `Pattern.found`: whether some part of a text fits a pattern.
-/

namespace Slab.Text

/-- A pattern. -/
inductive Pattern
  /-- The place where the text begins. -/
  | start
  /-- The place where the text ends. -/
  | stop
  /-- One letter, in either letter case. -/
  | letter (c : Char)
  /-- Any place. -/
  | anywhere
  /-- No place. -/
  | nowhere
  /-- The one and then the other. -/
  | both (p q : Pattern)
  /-- The one or the other. -/
  | either (p q : Pattern)
  deriving DecidableEq, Repr

/-- A place in a text. -/
structure Place where
  /-- Whether the text begins here. -/
  first : Bool
  /-- What stands behind it. -/
  rest : List Char
  deriving DecidableEq, Repr

/-- A character without regard to its letter case. Beyond ASCII, the sign for the unit kelvin and
the long s are forms of letters of ASCII. -/
def fold (c : Char) : Char :=
  if c = '\u212A' then 'k' else if c = '\u017F' then 's' else c.toLower

namespace Pattern

/-- The pattern of a word. -/
def word : List Char → Pattern
  | [] => anywhere
  | c :: s => both (letter c) (word s)

/-- The pattern of a choice. -/
def oneOf : List Pattern → Pattern
  | [] => nowhere
  | p :: l => either p (oneOf l)

/-- The places behind the parts of a text that begin at a place and fit. -/
def after : Pattern → Place → List Place
  | start, x => if x.first then [x] else []
  | stop, x => if x.rest.isEmpty then [x] else []
  | letter c, x =>
    match x.rest with
    | [] => []
    | d :: s => if fold d = fold c then [⟨false, s⟩] else []
  | anywhere, x => [x]
  | nowhere, _ => []
  | both p q, x => (p.after x).flatMap q.after
  | either p q, x => p.after x ++ q.after x

/-- Whether a part fits that begins at a place or behind it. -/
def foundFrom (p : Pattern) (first : Bool) : List Char → Bool
  | [] => !(p.after ⟨first, []⟩).isEmpty
  | c :: s => !(p.after ⟨first, c :: s⟩).isEmpty || p.foundFrom false s

/-- Whether a part of a text fits. -/
def found (p : Pattern) (s : List Char) : Bool := p.foundFrom true s

end Pattern
end Slab.Text
