import Slab.Number.Shortest
import Slab.Settings.Tree
import Slab.Text.Quoted
import Slab.Text.Record

/-!
# From trees to settings

Reading the twelve settings from a tree. A section is a dictionary with its settings as keys, or a
list with their values in the order in which they are declared; what is missing takes its default,
and what is not known is not looked at. Entries of a dictionary are read in the order of their keys,
and the first that cannot be read is the one reported.

* `Fault`, `Misfit`: why a value cannot be read, and where it stands;
* `Tree.found`: what a value is called in a report;
* `Field`, `readSection`: the settings of a section;
* `Settings.ofTree`: all settings.
-/

namespace Slab

/-- Why a value cannot be read. -/
inductive Misread
  /-- The value is not of the expected type. -/
  | invalidType (found expected : String)
  /-- The value is a number that the expected type does not have. -/
  | invalidValue (found expected : String)
  /-- The text is none of the expected words. -/
  | unknownVariant (found : String) (expected : List String)
  deriving DecidableEq, Repr

namespace Misread

/-- A word between grave accents. -/
def ticked (s : String) : String := String.ofList ['\x60'] ++ s ++ String.ofList ['\x60']

/-- A choice of words. -/
def choice : List String → String
  | [a] => ticked a
  | [a, b] => ticked a ++ " or " ++ ticked b
  | l => "one of " ++ ", ".intercalate (l.map ticked)

/-- What the user reads. -/
def text : Misread → String
  | invalidType found expected => "invalid type: found " ++ found ++ ", expected " ++ expected
  | invalidValue found expected => "invalid value " ++ found ++ ", expected " ++ expected
  | unknownVariant found expected =>
    "unknown variant: found " ++ ticked found ++ ", expected " ++ ticked (choice expected)

end Misread

/-- A value that cannot be read, at a path of keys. -/
structure Misfit where
  path : List String
  reason : Misread
  deriving DecidableEq, Repr

/-- The misfit seen from one level higher. -/
def Misfit.under (key : String) (m : Misfit) : Misfit := { m with path := key :: m.path }

namespace Tree

/-- What a value is called in a report. -/
def found : Tree → String
  | null => "unit"
  | bool b => "bool " ++ Text.flag b
  | natural n =>
    if n < UInt64.size then "unsigned int " ++ Misread.ticked (Numeral.decimal n)
    else "integer " ++ Misread.ticked (Numeral.decimal n) ++ " as u128"
  | signed i =>
    if -(Numeral.signedBound : Int) ≤ i then
      "signed int " ++ Misread.ticked (Numeral.signedDecimal i)
    else "integer " ++ Misread.ticked (Numeral.signedDecimal i) ++ " as i128"
  | real x => "float " ++ Misread.ticked x.plainText
  | text s => "string " ++ Text.quoted s
  | char c => "string " ++ Text.quoted (String.ofList [c])
  | list _ => "sequence"
  | map _ => "map"

/-- The report that a value is not of the expected type. -/
def misfit (t : Tree) (expected : String) : Misfit := ⟨[], .invalidType t.found expected⟩

/-- A number below `bound`, of a type that is called `name`. A number is out of range only among
those that a machine word can hold; a larger one is not a number of any type. -/
def readNatural (bound : Nat) (name : String) (t : Tree) : Except Misfit Nat :=
  match t with
  | natural n =>
    if n < bound then .ok n
    else if n < UInt64.size then .error ⟨[], .invalidValue t.found name⟩
    else .error (t.misfit name)
  | signed i =>
    if 0 ≤ i then .ok i.toNat
    else if -(Numeral.signedBound : Int) ≤ i then .error ⟨[], .invalidValue t.found name⟩
    else .error (t.misfit name)
  | _ => .error (t.misfit name)

/-- A size. -/
def readSize (t : Tree) : Except Misfit UInt64 :=
  (t.readNatural UInt64.size "usize").map UInt64.ofNat

/-- A count. -/
def readCount (t : Tree) : Except Misfit UInt64 :=
  (t.readNatural UInt64.size "u64").map UInt64.ofNat

/-- The number of a locality domain. -/
def readDomain (t : Tree) : Except Misfit UInt32 :=
  (t.readNatural UInt32.size "u32").map UInt32.ofNat

/-- A truth value. -/
def readBool : Tree → Except Misfit Bool
  | bool b => .ok b
  | t => .error (t.misfit "a boolean")

/-- A text, or a character as one. -/
def readText : Tree → Except Misfit String
  | text s => .ok s
  | char c => .ok (String.ofList [c])
  | t => .error (t.misfit "a string")

/-- Nothing. -/
def readUnit : Tree → Except Misfit Unit
  | null => .ok ()
  | t => .error (t.misfit "unit")

/-- Nothing, or what `read` reads. -/
def readOption (read : Tree → Except Misfit α) : Tree → Except Misfit (Option α)
  | null => .ok none
  | t => (read t).map some

/-- The items of a list, each read, the first of them number `i`. -/
def readItems (read : Tree → Except Misfit α) : Nat → List Tree → Except Misfit (List α)
  | _, [] => .ok []
  | i, t :: rest =>
    match read t with
    | .error m => .error (m.under (Numeral.decimal i))
    | .ok a => (readItems read (i + 1) rest).map fun l => a :: l

/-- A list. -/
def readList (read : Tree → Except Misfit α) : Tree → Except Misfit (List α)
  | list items => readItems read 0 items
  | t => .error (t.misfit "a sequence")

/-- One of several words, each standing for a value. -/
def readWord (words : List (String × α)) (s : String) : Except Misfit α :=
  match words.find? fun w => w.1 == s with
  | some w => .ok w.2
  | none => .error ⟨[], .unknownVariant s (words.map Prod.fst)⟩

/-- A choice: a word, or a dictionary whose first key is the word, with nothing as its value. -/
def readChoice (name : String) (words : List (String × α)) : Tree → Except Misfit α
  | text s => readWord words s
  | map [] => .error ⟨[], .invalidType "map" "enum"⟩
  | map ((k, t) :: _) =>
    match readWord words k with
    | .error m => .error m
    | .ok a =>
      match readUnit t with
      | .error m => .error (m.under k)
      | .ok _ => .ok a
  | t => .error (t.misfit ("enum " ++ name))

end Tree

/-- A setting of a section: its key and how its value becomes part of the section. -/
structure Field (σ : Type) where
  key : String
  set : σ → Tree → Except Misfit σ

namespace Field

/-- The section with one more entry read; an unknown key changes nothing. -/
def readEntry (fields : List (Field σ)) (s : σ) (e : String × Tree) : Except Misfit σ :=
  match fields.find? fun f => f.key == e.1 with
  | none => .ok s
  | some f => (f.set s e.2).mapError (Misfit.under e.1)

/-- The section with entries read one after another. -/
def readEntries (fields : List (Field σ)) : σ → List (String × Tree) → Except Misfit σ
  | s, [] => .ok s
  | s, e :: rest =>
    match readEntry fields s e with
    | .error m => .error m
    | .ok s => readEntries fields s rest

/-- The section with values read in the order of its settings, the first of them number `i`. -/
def readValues : Nat → List (Field σ) → σ → List Tree → Except Misfit σ
  | i, f :: fields, s, t :: rest =>
    match f.set s t with
    | .error m => .error (m.under (Numeral.decimal i))
    | .ok s => readValues (i + 1) fields s rest
  | _, _, s, _ => .ok s

/-- A section of a given name. -/
def readSection (name : String) (fields : List (Field σ)) (initial : σ) : Tree → Except Misfit σ
  | .map entries => readEntries fields initial entries
  | .list items => readValues 0 fields initial items
  | t => .error (t.misfit ("struct " ++ name))

end Field

namespace Settings

/-- The words for policies on locality. -/
def localityWords : List (String × LocalityPolicy) :=
  LocalityPolicy.every.map fun p => (p.word, p)

/-- The words for policies on locking. -/
def lockWords : List (String × LockPolicy) := LockPolicy.every.map fun p => (p.word, p)

/-- The settings of the reservation. -/
def arenaFields : List (Field Settings.Arena) :=
  [ ⟨"size_bytes", fun s t => t.readSize.map fun x => { s with sizeBytes := x }⟩,
    ⟨"domain", fun s t => t.readDomain.map fun x => { s with domain := x }⟩,
    ⟨"huge_pages", fun s t => t.readBool.map fun x => { s with hugePages := x }⟩,
    ⟨"locality", fun s t =>
      (t.readChoice "LocalityMode" localityWords).map fun x => { s with locality := x }⟩,
    ⟨"lock", fun s t => (t.readChoice "LockMode" lockWords).map fun x => { s with lock := x }⟩ ]

/-- The settings of the pool. -/
def poolFields : List (Field Settings.Pool) :=
  [ ⟨"capacity", fun s t => t.readSize.map fun x => { s with capacity := x }⟩,
    ⟨"slot_size", fun s t =>
      (t.readOption Tree.readSize).map fun x => { s with slotSize := x }⟩ ]

/-- The settings of the workers. -/
def workerFields : List (Field Settings.Workers) :=
  [ ⟨"threads", fun s t => t.readSize.map fun x => { s with threads := x }⟩,
    ⟨"cpus", fun s t => (t.readList Tree.readSize).map fun x => { s with cpus := x }⟩,
    ⟨"iterations", fun s t => t.readCount.map fun x => { s with iterations := x }⟩ ]

/-- The settings of the reports. -/
def telemetryFields : List (Field Settings.Telemetry) :=
  [ ⟨"log_level", fun s t => t.readText.map fun x => { s with logLevel := x }⟩,
    ⟨"metrics", fun s t => t.readBool.map fun x => { s with metrics := x }⟩ ]

/-- The sections. -/
def sections : List (Field Settings) :=
  [ ⟨"arena", fun s t =>
      (Field.readSection "ArenaConfig" arenaFields {} t).map fun x => { s with arena := x }⟩,
    ⟨"pool", fun s t =>
      (Field.readSection "PoolConfig" poolFields {} t).map fun x => { s with pool := x }⟩,
    ⟨"workers", fun s t =>
      (Field.readSection "WorkerConfig" workerFields {} t).map fun x => { s with workers := x }⟩,
    ⟨"telemetry", fun s t =>
      (Field.readSection "TelemetryConfig" telemetryFields {} t).map fun x =>
        { s with telemetry := x }⟩ ]

/-- The settings that a tree holds. -/
def ofTree (t : Tree) : Except Misfit Settings :=
  Field.readSection "HotpoolConfig" sections {} t

end Settings
end Slab
