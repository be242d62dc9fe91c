import Slab.Text.Cut

/-!
# Files

What paths name, seen from the working directory.

* `Entry`, `Files`: what a path can name, and what every path names;
* `Files.content?`: what reading a path gives;
* `Files.listed`: files that have been looked up before;
* `Files.outward`: how a path is spelled from the directories around the working directory;
* `FileTree`, `FileTree.files`: directories and files as a value, with one of them as the working
  directory.
-/

namespace Slab

/-- What a path names. -/
inductive Entry
  /-- A file, with its text unless it cannot be read as text. -/
  | file (content : Option String)
  | directory
  /-- Anything else that has a name, such as a device or a pipe. -/
  | special
  deriving DecidableEq, Repr

/-- What paths name. -/
structure Files where
  /-- What a path names from the working directory. -/
  entry : String → Option Entry
  /-- What the file holds that a path names from the nearest of the directories around the working
  directory in which it names one. -/
  around : String → Option (Option String)

namespace Files

/-- Whether a path names anything. -/
def has (f : Files) (path : String) : Bool := (f.entry path).isSome

/-- What reading a path gives: what the file holds that it names here, or else further up. Only
files are read. -/
def content? (f : Files) (path : String) : Option (Option String) :=
  match f.entry path with
  | some (.file content) => some content
  | _ => f.around path

/-- The files of a listing, which gives for a path what it names here and what the file holds that
it names further up. -/
def listed (l : List (String × Option Entry × Option (Option String))) : Files :=
  { entry := fun path => (l.lookup path).bind Prod.fst
    around := fun path => (l.lookup path).bind Prod.snd }

/-- A path as it is spelled from the directories around the working directory, the nearest of which
stands first, if there are `depth` of them. A path from the root is the same everywhere. -/
def outward (depth : Nat) (path : String) : List String :=
  if path.startsWith "/" then []
  else (List.range depth).map fun i => String.join (List.replicate (i + 1) "../") ++ path

end Files

/-- A directory with all that is in it, or a file. -/
inductive FileTree
  | file (text : String)
  | directory (entries : List (String × FileTree))
  deriving Repr, Inhabited

namespace FileTree

/-- What is named in a directory. -/
def child? (name : String) : List (String × FileTree) → Option FileTree
  | [] => none
  | (n, t) :: rest => if n = name then some t else child? name rest

/-- Where the parts of a path lead from a tree that lies in the directories `above`, the nearest
first. An empty part and a point lead nowhere else, two points lead up, and nothing leads out of a
file. -/
def walk : List FileTree → FileTree → List String → Option FileTree
  | _, t, [] => some t
  | _, .file _, _ :: _ => none
  | above, t@(.directory entries), p :: ps =>
    if p = "" ∨ p = "." then walk above t ps
    else if p = ".." then
      match above with
      | [] => walk [] t ps
      | u :: above => walk above u ps
    else
      match child? p entries with
      | none => none
      | some u => walk (t :: above) u ps

/-- The tree as an entry. -/
def entry : FileTree → Entry
  | file text => .file (some text)
  | directory _ => .directory

/-- The parts of a path. -/
def parts (path : String) : List String := (Text.pieces '/' path.toList).map String.ofList

/-- A directory with nothing in it. -/
def empty : FileTree := directory []

/-- What a path names from a working directory around which there is nothing else. -/
def resolve? (t : FileTree) (path : String) : Option FileTree :=
  match path.toList with
  | [] => none
  | '/' :: _ => walk [] empty (parts path)
  | _ => walk [empty] t (parts path)

/-- The files seen from a working directory around which there is nothing else. -/
def files (t : FileTree) : Files :=
  { entry := fun path => (t.resolve? path).map entry, around := fun _ => none }

/-- The tree with another tree at the end of a path of names, in which an empty part and a point
lead nowhere else; directories on the way are made. -/
def insert : FileTree → List String → FileTree → FileTree
  | _, [], new => new
  | t, p :: ps, new =>
    if p = "" ∨ p = "." then insert t ps new
    else
      let entries := match t with
        | directory entries => entries
        | file _ => []
      let inner := insert ((child? p entries).getD empty) ps new
      directory ((p, inner) :: entries.filter fun e => e.1 ≠ p)

end FileTree
end Slab
