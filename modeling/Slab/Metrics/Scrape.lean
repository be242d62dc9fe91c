import Slab.Number.Numeral
import Slab.Text.Cut

/-!
# Reading an exposition

What a monitoring system reads from the text that shows metrics.

* `Sample`, `Reading`: a value under its name, and a family with its values;
* `Scrape.line?`: one line, which tells the meaning of a name, its type or a value;
* `Scrape.read?`: all families of a text;
* `Scrape.number?`: the whole number that a text shows under a name.
-/

namespace Slab.Metrics

/-- A value under its name. -/
structure Sample where
  name : String
  /-- The bound that the value is about, if it is about one. -/
  bound : Option String
  value : String
  deriving DecidableEq, Repr

/-- A family as a text shows it. -/
structure Reading where
  name : String
  help : String
  kind : String
  samples : List Sample
  deriving DecidableEq, Repr

namespace Scrape

/-- One line. -/
inductive Line
  | help (name text : String)
  | kind (name text : String)
  | sample (s : Sample)
  deriving DecidableEq, Repr

/-- The bound between the braces after a name: `le="` and the bound, in front of a closing quote and
brace. -/
def bound? (s : List Char) : Option String :=
  match Text.cutFirst '"' s with
  | some (key, rest) =>
    if key = "le=".toList then
      match Text.cutFirst '"' rest with
      | some (bound, ['\x7d']) => some (String.ofList bound)
      | _ => none
    else none
  | none => none

/-- A value under a name with or without a bound. -/
def sample? (s value : List Char) : Option Sample :=
  match Text.cutFirst '\x7b' s with
  | some (name, rest) =>
    (bound? rest).map fun b => ⟨String.ofList name, some b, String.ofList value⟩
  | none => some ⟨String.ofList s, none, String.ofList value⟩

/-- What a line tells about a name, after its mark. -/
def remark? (s : List Char) : Option Line :=
  match Text.cutFirst ' ' s with
  | some (word, rest) =>
    match Text.cutFirst ' ' rest with
    | some (name, text) =>
      if word = "HELP".toList then some (.help (String.ofList name) (String.ofList text))
      else if word = "TYPE".toList then some (.kind (String.ofList name) (String.ofList text))
      else none
    | none => none
  | none => none

/-- One line. -/
def line? (s : List Char) : Option Line :=
  match Text.cutFirst ' ' s with
  | some (first, rest) =>
    if first = ['#'] then remark? rest else (sample? first rest).map Line.sample
  | none => none

/-- The values at the beginning, and the families after them. -/
def group? : List Line → Option (List Sample × List Reading)
  | [] => some ([], [])
  | .sample s :: l => (group? l).map fun p => (s :: p.1, p.2)
  | .help name help :: .kind name' kind :: l =>
    if name = name' then (group? l).map fun p => ([], ⟨name, help, kind, p.1⟩ :: p.2) else none
  | _ => none

/-- The families of lines, each of which begins with the meaning and the type of its name. -/
def families? (l : List Line) : Option (List Reading) :=
  match group? l with
  | some ([], readings) => some readings
  | _ => none

/-- Every line, if all can be read. -/
def lines? : List (List Char) → Option (List Line)
  | [] => some []
  | s :: l =>
    match line? s, lines? l with
    | some a, some b => some (a :: b)
    | _, _ => none

/-- The lines of a text, every one of which is ended. -/
def ended? : List (List Char) → Option (List (List Char))
  | [] => none
  | [s] => if s = [] then some [] else none
  | s :: t :: l => (ended? (t :: l)).map fun lines => s :: lines

/-- The families of a text. -/
def read? (text : String) : Option (List Reading) :=
  ((ended? (Text.pieces '\n' text.toList)).bind lines?).bind families?

/-- The value under a name of a family, with or without a bound. -/
def value? (readings : List Reading) (family name : String) (bound : Option String) :
    Option String :=
  (readings.find? fun r => r.name == family).bind fun r =>
    (r.samples.find? fun s => s.name == name && s.bound == bound).map Sample.value

/-- The whole number under a name of a family. -/
def number? (readings : List Reading) (family name : String) (bound : Option String) : Option Int :=
  (value? readings family name bound).bind fun v => Numeral.signed? v.toList

end Scrape
end Slab.Metrics
