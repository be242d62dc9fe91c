import Slab.Dict
import Slab.Number.Binary64
import Slab.Settings.Basic

/-!
# Trees of values

Settings before they have types: what a file or the environment says, and how one such saying is
laid over another.

* `Tree`: values, lists of them and dictionaries of them;
* `Tree.merge`: dictionaries are laid over one another key by key, anything else replaces what it is
  laid over;
* `Tree.nest`: a value at a path;
* `Settings.toTree`: settings as a tree.
-/

namespace Slab

/-- Values without types. -/
inductive Tree
  | null
  | bool (b : Bool)
  /-- A number written without a minus sign. -/
  | natural (n : Nat)
  /-- A number written with a minus sign. -/
  | signed (i : Int)
  | real (x : Binary64)
  | text (s : String)
  | char (c : Char)
  | list (items : List Tree)
  | map (entries : List (String × Tree))
  deriving Repr, Inhabited, BEq

namespace Tree

mutual

/-- The tree `upper` laid over the tree `base`. -/
def merge (base upper : Tree) : Tree :=
  match upper with
  | map entries =>
    match base with
    | map d => map (mergeEntries d entries)
    | _ => map entries
  | null => null
  | bool b => bool b
  | natural n => natural n
  | signed i => signed i
  | real x => real x
  | text s => text s
  | char c => char c
  | list items => list items
termination_by structural upper

/-- Entries laid over a dictionary one after another. -/
def mergeEntries (d : Dict String Tree) (entries : List (String × Tree)) : Dict String Tree :=
  match entries with
  | [] => d
  | e :: rest => mergeEntries (mergeEntry d e) rest
termination_by structural entries

/-- One entry laid over a dictionary. -/
def mergeEntry (d : Dict String Tree) (e : String × Tree) : Dict String Tree :=
  match e with
  | (k, t) =>
    match d.find? k with
    | some u => d.insert k (merge u t)
    | none => d.insert k t
termination_by structural e

end

/-- A value at the end of a path of keys. -/
def nest (path : List String) (t : Tree) : Tree := path.foldr (fun k t => map [(k, t)]) t

/-- The value at a path of keys. -/
def get? : Tree → List String → Option Tree
  | t, [] => some t
  | map d, k :: path => (Dict.find? d k).bind fun t => get? t path
  | _, _ :: _ => none

end Tree

namespace Settings

/-- A number as a tree. -/
def wordTree (n : UInt64) : Tree := .natural n.toNat

/-- The settings as a tree: a dictionary for each section. -/
def toTree (s : Settings) : Tree :=
  .map
    [ ("arena", .map
        [ ("domain", .natural s.arena.domain.toNat),
          ("huge_pages", .bool s.arena.hugePages),
          ("locality", .text s.arena.locality.word),
          ("lock", .text s.arena.lock.word),
          ("size_bytes", wordTree s.arena.sizeBytes) ]),
      ("pool", .map
        [ ("capacity", wordTree s.pool.capacity),
          ("slot_size", (s.pool.slotSize.map wordTree).getD .null) ]),
      ("telemetry", .map
        [ ("log_level", .text s.telemetry.logLevel),
          ("metrics", .bool s.telemetry.metrics) ]),
      ("workers", .map
        [ ("cpus", .list (s.workers.cpus.map wordTree)),
          ("iterations", wordTree s.workers.iterations),
          ("threads", wordTree s.workers.threads) ]) ]

end Settings
end Slab
