import Slab.Markup.Node
import Slab.Markup.Scalar

/-!
# Documents as settings

The tree of values that a document describes, which is a dictionary at its root.

* `Node.size`: how many marks and texts a document consists of, which bounds how often it may refer
  to its own parts;
* `Reader`: what is known and what has been used up while a document is read;
* `Document.read?`: the dictionary that a text describes.
-/

namespace Slab.Markup

mutual

/-- The marks and texts of a node. -/
def Node.size : Node → Nat
  | .scalar .. => 1
  | .reference _ => 1
  | .list _ _ items => 2 + itemsSize items
  | .mapping _ _ entries => 2 + entriesSize entries

def Node.itemsSize : List Node → Nat
  | [] => 0
  | n :: rest => n.size + itemsSize rest

def Node.entriesSize : List (Node × Node) → Nat
  | [] => 0
  | e :: rest => entrySize e + entriesSize rest

def Node.entrySize : Node × Node → Nat
  | (k, v) => k.size + v.size

end

mutual

/-- The nodes with a number, in the order in which they begin; the last of a number is the one that
counts. -/
def Node.numbered : Node → List (Nat × Node)
  | n@(.scalar id ..) => id.toList.map fun i => (i, n)
  | .reference _ => []
  | n@(.list id _ items) => (id.toList.map fun i => (i, n)) ++ itemsNumbered items
  | n@(.mapping id _ entries) => (id.toList.map fun i => (i, n)) ++ entriesNumbered entries

def Node.itemsNumbered : List Node → List (Nat × Node)
  | [] => []
  | n :: rest => n.numbered ++ itemsNumbered rest

def Node.entriesNumbered : List (Node × Node) → List (Nat × Node)
  | [] => []
  | e :: rest => entryNumbered e ++ entriesNumbered rest

def Node.entryNumbered : Node × Node → List (Nat × Node)
  | (k, v) => k.numbered ++ v.numbered

end

namespace Document

/-- The nodes that references mean, and how many references may still be followed. -/
abbrev Reader := StateT Nat Option

/-- Reading that fails. -/
def Reader.fail {α : Type} : Reader α := fun _ => none

/-- The node that a node means; following a reference uses one up. -/
def follow (targets : Dict Nat Node) : Node → Reader Node
  | .reference id => fun left =>
    match left, targets.find? id with
    | left + 1, some n => some (n, left)
    | _, _ => none
  | n => pure n

/-- Whether a list or a mapping may have a tag: one of its own meaning is an error. -/
def ignoresTag (tag : Option (List Char)) : Bool :=
  match tag with
  | some ('!' :: _) => false
  | _ => true

/-- A key: any text, as it stands. -/
def readKey (targets : Dict Nat Node) (n : Node) : Reader String := do
  match ← follow targets n with
  | .scalar _ _ _ text => pure (String.ofList text)
  | _ => Reader.fail

/-- Lists and mappings nest no deeper. -/
def depthLimit : Nat := 128

/-- References for each mark or text. -/
def referenceFactor : Nat := 100

/-- The entries of a mapping, of those with equal keys the last. -/
def readEntries (targets : Dict Nat Node) (read : Node → Reader Tree) :
    Dict String Tree → List (Node × Node) → Reader (Dict String Tree)
  | d, [] => pure d
  | d, (k, v) :: rest => do
    let key ← readKey targets k
    let t ← read v
    readEntries targets read (d.insert key t) rest

/-- What a node describes, with so many lists and mappings still allowed to nest. -/
def read (targets : Dict Nat Node) : Nat → Node → Reader Tree
  | 0, n => do
    match ← follow targets n with
    | .scalar _ none true text => pure (Scalar.meaning text)
    | .scalar _ none false text => pure (Scalar.literal text)
    | .scalar _ (some tag) _ text => fun left => (Scalar.tagged? tag text).map fun t => (t, left)
    | _ => Reader.fail
  | depth + 1, n => do
    match ← follow targets n with
    | .scalar _ none true text => pure (Scalar.meaning text)
    | .scalar _ none false text => pure (Scalar.literal text)
    | .scalar _ (some tag) _ text => fun left => (Scalar.tagged? tag text).map fun t => (t, left)
    | .list _ tag items =>
      if ignoresTag tag then do
        pure (.list (← items.mapM (read targets depth)))
      else Reader.fail
    | .mapping _ tag entries =>
      if ignoresTag tag then do
        pure (.map (← readEntries targets (read targets depth) [] entries))
      else Reader.fail
    | .reference _ => Reader.fail

/-- The dictionary that a document describes. A bare empty text stands for an empty one, and a tag
at the root changes nothing. -/
def ofNode? (n : Node) : Option Tree :=
  let targets : Dict Nat Node := Dict.ofList n.numbered
  match n with
  | .mapping _ _ entries =>
    ((readEntries targets (read targets (depthLimit - 1)) [] entries).run
      (referenceFactor * n.size)).map fun p => .map p.1
  | .scalar _ _ true [] => some (.map [])
  | _ => none

/-- The dictionary that a text describes; an empty one where the text holds no document. -/
def read? (text : String) : Option Tree := do
  let tokens ← Token.scan? text.toList
  match ← Node.ofTokens? tokens with
  | none => some (.map [])
  | some n => ofNode? n

end Document
end Slab.Markup
