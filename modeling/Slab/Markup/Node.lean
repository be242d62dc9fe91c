import Slab.Dict
import Slab.Markup.Token

/-!
# Nodes of a document

A document as a tree of texts, lists and mappings, in which a node may have a tag, and a number by
which references elsewhere in the document mean it.

* `Node`: the trees;
* `Reading`: the tokens ahead and the names met so far;
* `Node.ofTokens?`: the one document that tokens make up, `none` within if they make up none at all.
-/

namespace Slab.Markup

/-- A part of a document. -/
inductive Node
  /-- A text with its tag; a bare one without a tag is read for what it looks like. -/
  | scalar (id : Option Nat) (tag : Option (List Char)) (isBare : Bool) (text : List Char)
  | list (id : Option Nat) (tag : Option (List Char)) (items : List Node)
  | mapping (id : Option Nat) (tag : Option (List Char)) (entries : List (Node × Node))
  /-- The node with that number. -/
  | reference (id : Nat)
  deriving Repr, Inhabited

/-- The text that stands where nothing stands. -/
def Node.nothing : Node := .scalar none none true []

/-- The tokens ahead and what has been said about names and tags. -/
structure Reading where
  tokens : List Token
  /-- The number of each name. A name used again gets another number. -/
  names : Dict String Nat := []
  /-- What the handles of tags stand for. -/
  handles : List (List Char × List Char) := []

namespace Reading

def next (r : Reading) : Option Token := r.tokens.head?

/-- Past one token. -/
def drop (r : Reading) : Reading := { r with tokens := r.tokens.tail }

/-- A new number for a name: how many names there are without it being counted anew. -/
def named (r : Reading) (name : String) : Nat × Reading :=
  (r.names.length, { r with names := r.names.insert name r.names.length })

end Reading

/-- What may stand before a node. -/
structure Properties where
  id : Option Nat := none
  tag : Option (List Char) := none
  deriving Repr

namespace Properties

/-- Whether there is neither a name nor a tag. -/
def isEmpty (p : Properties) : Bool := p.id.isNone && p.tag.isNone

/-- A tag in full: its handle replaced by what it stands for. -/
def resolve? (handles : List (List Char × List Char)) (h l : List Char) : Option (List Char) :=
  if h.isEmpty then some l
  else (handles.find? fun p => p.1 == h).map fun p => p.2 ++ l

/-- A name and a tag in any order, each at most once; `names` and `tags` say which may still come.
The number of the name is given out at once, but the tag is resolved only after both. -/
def read? (r : Reading) : Option (Properties × Reading) :=
  match r.tokens with
  | .anchor n :: rest =>
    let (id, r) := { r with tokens := rest }.named n
    match r.tokens with
    | .tag h l :: rest =>
      (resolve? r.handles h l).map fun t => (⟨some id, some t⟩, { r with tokens := rest })
    | _ => some (⟨some id, none⟩, r)
  | .tag h l :: rest =>
    match resolve? r.handles h l with
    | none => none
    | some t =>
      match rest with
      | .anchor n :: rest =>
        let (id, r) := { r with tokens := rest }.named n
        some (⟨some id, some t⟩, r)
      | _ => some (⟨none, some t⟩, { r with tokens := rest })
  | _ => some ({}, r)

/-- A text with these properties. The exclamation mark alone is the tag of texts without one. -/
def scalar (p : Properties) (text : List Char) (isBare : Bool) : Node :=
  .scalar p.id (if p.tag = some ['!'] then none else p.tag) isBare text

end Properties

namespace Node

/-- Whether a block mapping has nothing at the place before a token. -/
def endsEntry : Option Token → Bool
  | some .key | some .value | some .blockEnd => true
  | _ => false

/-- Whether a list in brackets has nothing at the place before a token. -/
def endsItem : Option Token → Bool
  | some .comma | some .listClose => true
  | _ => false

/-- Whether a mapping in braces has nothing at the place before a token. -/
def endsPair : Option Token → Bool
  | some .comma | some .mapClose => true
  | _ => false

def isKey : Option Token → Bool
  | some .key => true
  | _ => false

def isValue : Option Token → Bool
  | some .value => true
  | _ => false

def isDash : Option Token → Bool
  | some .dash => true
  | _ => false

def isComma : Option Token → Bool
  | some .comma => true
  | _ => false

mutual

/-- A node. `inBlock` says whether indented blocks may begin here, `flush` whether the items of a
list may stand at the column of the mapping around it. -/
def read? (fuel : Nat) (inBlock flush : Bool) (r : Reading) : Option (Node × Reading) :=
  match fuel with
  | 0 => none
  | fuel + 1 =>
    match r.tokens with
    | .reference n :: rest =>
      (r.names.find? n).map fun id => (.reference id, { r with tokens := rest })
    | _ =>
      match Properties.read? r with
      | none => none
      | some (p, r) =>
        match r.tokens with
        | .dash :: _ =>
          if flush then (flushItems? fuel r).map fun q => (.list p.id p.tag q.1, q.2)
          else if p.isEmpty then none
          else some (.scalar p.id p.tag true [], r)
        | .scalar text isBare :: rest => some (p.scalar text isBare, { r with tokens := rest })
        | .listOpen :: rest =>
          (listItems? fuel true { r with tokens := rest }).map fun q => (.list p.id p.tag q.1, q.2)
        | .mapOpen :: rest =>
          (mapEntries? fuel true { r with tokens := rest }).map fun q =>
            (.mapping p.id p.tag q.1, q.2)
        | .sequenceBlock :: rest =>
          if inBlock then
            (blockItems? fuel { r with tokens := rest }).map fun q => (.list p.id p.tag q.1, q.2)
          else if p.isEmpty then none
          else some (.scalar p.id p.tag true [], r)
        | .mappingBlock :: rest =>
          if inBlock then
            (blockEntries? fuel { r with tokens := rest }).map fun q =>
              (.mapping p.id p.tag q.1, q.2)
          else if p.isEmpty then none
          else some (.scalar p.id p.tag true [], r)
        | _ => if p.isEmpty then none else some (.scalar p.id p.tag true [], r)

/-- A node, or nothing where `absent` holds. -/
def readUnless? (fuel : Nat) (absent inBlock flush : Bool) (r : Reading) :
    Option (Node × Reading) :=
  match fuel with
  | 0 => none
  | fuel + 1 => if absent then some (nothing, r) else read? fuel inBlock flush r

/-- The items of an indented list. -/
def blockItems? (fuel : Nat) (r : Reading) : Option (List Node × Reading) :=
  match fuel with
  | 0 => none
  | fuel + 1 =>
    match r.tokens with
    | .blockEnd :: rest => some ([], { r with tokens := rest })
    | .dash :: rest =>
      let r := { r with tokens := rest }
      let absent := match r.next with
        | some .dash | some .blockEnd => true
        | _ => false
      match readUnless? fuel absent true false r with
      | none => none
      | some (n, r) => (blockItems? fuel r).map fun q => (n :: q.1, q.2)
    | _ => none

/-- The items of a list at the column of the mapping around it. -/
def flushItems? (fuel : Nat) (r : Reading) : Option (List Node × Reading) :=
  match fuel with
  | 0 => none
  | fuel + 1 =>
    match r.tokens with
    | .dash :: rest =>
      let r := { r with tokens := rest }
      match readUnless? fuel (isDash r.next || endsEntry r.next) true false r with
      | none => none
      | some (n, r) => (flushItems? fuel r).map fun q => (n :: q.1, q.2)
    | _ => some ([], r)

/-- The entries of an indented mapping. -/
def blockEntries? (fuel : Nat) (r : Reading) : Option (List (Node × Node) × Reading) :=
  match fuel with
  | 0 => none
  | fuel + 1 =>
    match r.tokens with
    | .blockEnd :: rest => some ([], { r with tokens := rest })
    | .key :: rest =>
      let r := { r with tokens := rest }
      match readUnless? fuel (endsEntry r.next) true true r with
      | none => none
      | some (k, r) =>
        match blockValue? fuel r with
        | none => none
        | some (v, r) => (blockEntries? fuel r).map fun q => ((k, v) :: q.1, q.2)
    | _ => none

/-- The value of an entry of an indented mapping. -/
def blockValue? (fuel : Nat) (r : Reading) : Option (Node × Reading) :=
  match fuel with
  | 0 => none
  | fuel + 1 =>
    match r.tokens with
    | .value :: rest =>
      let r := { r with tokens := rest }
      readUnless? fuel (endsEntry r.next) true true r
    | _ => some (nothing, r)

/-- The items of a list in brackets; `first` says whether none has been read. -/
def listItems? (fuel : Nat) (first : Bool) (r : Reading) : Option (List Node × Reading) :=
  match fuel with
  | 0 => none
  | fuel + 1 =>
    match r.tokens with
    | .listClose :: rest => some ([], { r with tokens := rest })
    | _ =>
      if !first && !isComma r.next then none
      else
        let r := if first then r else r.drop
        match r.tokens with
        | .listClose :: rest => some ([], { r with tokens := rest })
        | .key :: rest =>
          match pair? fuel { r with tokens := rest } with
          | none => none
          | some (n, r) => (listItems? fuel false r).map fun q => (n :: q.1, q.2)
        | _ =>
          match read? fuel false false r with
          | none => none
          | some (n, r) => (listItems? fuel false r).map fun q => (n :: q.1, q.2)

/-- An entry among the items of a list, which is a mapping of its own. Where its key is missing, the
token in the key's place is passed over. -/
def pair? (fuel : Nat) (r : Reading) : Option (Node × Reading) :=
  match fuel with
  | 0 => none
  | fuel + 1 =>
    let absent := isValue r.next || endsItem r.next
    match readUnless? fuel absent false false (if absent then r.drop else r) with
    | none => none
    | some (k, r) =>
      match flowValue? fuel endsItem r with
      | none => none
      | some (v, r) => some (.mapping none none [(k, v)], r)

/-- The value of an entry in brackets or braces. -/
def flowValue? (fuel : Nat) (ends : Option Token → Bool) (r : Reading) : Option (Node × Reading) :=
  match fuel with
  | 0 => none
  | fuel + 1 =>
    match r.tokens with
    | .value :: rest =>
      let r := { r with tokens := rest }
      readUnless? fuel (ends r.next) false false r
    | _ => some (nothing, r)

/-- The entries of a mapping in braces; `first` says whether none has been read. A node without a
question mark or a colon is a key with nothing as its value. -/
def mapEntries? (fuel : Nat) (first : Bool) (r : Reading) : Option (List (Node × Node) × Reading) :=
  match fuel with
  | 0 => none
  | fuel + 1 =>
    match r.tokens with
    | .mapClose :: rest => some ([], { r with tokens := rest })
    | _ =>
      if !first && !isComma r.next then none
      else
        let r := if first then r else r.drop
        match r.tokens with
        | .mapClose :: rest => some ([], { r with tokens := rest })
        | .key :: rest =>
          let r := { r with tokens := rest }
          match readUnless? fuel (isValue r.next || endsPair r.next) false false r with
          | none => none
          | some (k, r) =>
            match flowValue? fuel endsPair r with
            | none => none
            | some (v, r) => (mapEntries? fuel false r).map fun q => ((k, v) :: q.1, q.2)
        | _ =>
          match read? fuel false false r with
          | none => none
          | some (k, r) => (mapEntries? fuel false r).map fun q => ((k, nothing) :: q.1, q.2)

end

/-- What handles stand for unless a directive says otherwise. -/
def commonHandles : List (List Char × List Char) :=
  [(['!'], ['!']), (['!', '!'], "tag:yaml.org,2002:".toList)]

/-- The directives before a document: at most one version, which must be 1.1 or 1.2, and each handle
at most once. -/
def directives? (version : Bool) : Reading → List Token → Option Reading
  | r, .directive (.version major minor) :: rest =>
    if version ∨ major ≠ 1 ∨ (minor ≠ 1 ∧ minor ≠ 2) then none else directives? true r rest
  | r, .directive (.tag h l) :: rest =>
    if r.handles.any fun p => p.1 == h then none
    else directives? version { r with handles := r.handles ++ [(h, l)] } rest
  | r, tokens => some { r with tokens, handles := r.handles ++ commonHandles }

/-- Nodes and tokens nest at most a few levels for each token. -/
def enough (tokens : List Token) : Nat := 4 * tokens.length + 8

/-- The document that opens with a mark. -/
def explicit? (r : Reading) : Option (Node × Reading) :=
  match r.tokens with
  | .documentStart :: rest =>
    let r := { r with tokens := rest }
    let absent := match r.next with
      | none | some (.directive _) | some .documentStart | some .documentEnd => true
      | _ => false
    readUnless? (enough rest) absent true false r
  | _ => none

/-- The document at the beginning of the tokens. -/
def document? (tokens : List Token) : Option (Node × Reading) :=
  let r : Reading := { tokens }
  match tokens with
  | .directive _ :: _ | .documentStart :: _ => (directives? false r tokens).bind explicit?
  | _ => read? (enough tokens) true false { r with handles := commonHandles }

/-- Whether no more than ends of documents is ahead. -/
def isOver (r : Reading) : Bool :=
  r.tokens.all fun
    | .documentEnd => true
    | _ => false

/-- The one document that tokens make up; `none` within where there are no tokens. A second document
is an error. -/
def ofTokens? (tokens : List Token) : Option (Option Node) :=
  if tokens.isEmpty then some none
  else
    match document? tokens with
    | none => none
    | some (n, r) => if isOver r then some (some n) else none

end Node
end Slab.Markup
