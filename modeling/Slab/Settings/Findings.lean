import Slab.Dict

/-!
# Findings

What a check finds wrong, field by field. A field may have fields of its own, or items that have
fields. What is found is listed as remarks, each under the path of its field.

* `Complaint`, `Finding`, `Findings`: what is wrong with a value, with all that is in it, and with
  the fields of a record;
* `Findings.complain`, `Findings.lookInto`: adding what is wrong with one field, or inside it;
* `Listing`: the order in which the entries of each record are listed;
* `Findings.remarks`: all remarks in such an order.
-/

namespace Slab

/-- What is wrong with a value. -/
structure Complaint where
  /-- The word for it. -/
  code : String
  /-- What is said in place of the word. -/
  message : Option String := none
  deriving DecidableEq, Repr

/-- What is found wrong with a value and in it. -/
inductive Finding
  /-- The value itself is wrong. -/
  | complaints (l : List Complaint)
  /-- Fields of the value are wrong. -/
  | inside (l : List (String × Finding))
  /-- Fields of its items are wrong. -/
  | items (l : List (Nat × List (String × Finding)))
  deriving Repr

namespace Finding

mutual

def decEq (f g : Finding) : Decidable (f = g) :=
  match f, g with
  | complaints l, complaints m =>
    decidable_of_decidable_of_iff (p := l = m) (.of_eq (complaints.injEq l m).symm)
  | inside l, inside m =>
    letI := decEqFields l m
    decidable_of_decidable_of_iff (p := l = m) (.of_eq (inside.injEq l m).symm)
  | items l, items m =>
    letI := decEqItems l m
    decidable_of_decidable_of_iff (p := l = m) (.of_eq (items.injEq l m).symm)
  | complaints _, inside _ | complaints _, items _ | inside _, complaints _ | inside _, items _
  | items _, complaints _ | items _, inside _ => isFalse nofun
termination_by structural f

def decEqFields (l m : List (String × Finding)) : Decidable (l = m) :=
  match l, m with
  | [], [] => isTrue rfl
  | a :: l, b :: m =>
    letI := decEqField a b
    letI := decEqFields l m
    decidable_of_decidable_of_iff (p := a = b ∧ l = m) (.of_eq (List.cons.injEq a l b m).symm)
  | [], _ :: _ | _ :: _, [] => isFalse nofun
termination_by structural l

def decEqField (a b : String × Finding) : Decidable (a = b) :=
  match a, b with
  | (j, f), (k, g) =>
    letI := decEq f g
    decidable_of_decidable_of_iff (p := j = k ∧ f = g) (.of_eq (Prod.mk.injEq j f k g).symm)
termination_by structural a

def decEqItems (l m : List (Nat × List (String × Finding))) : Decidable (l = m) :=
  match l, m with
  | [], [] => isTrue rfl
  | a :: l, b :: m =>
    letI := decEqItem a b
    letI := decEqItems l m
    decidable_of_decidable_of_iff (p := a = b ∧ l = m) (.of_eq (List.cons.injEq a l b m).symm)
  | [], _ :: _ | _ :: _, [] => isFalse nofun
termination_by structural l

def decEqItem (a b : Nat × List (String × Finding)) : Decidable (a = b) :=
  match a, b with
  | (i, l), (j, m) =>
    letI := decEqFields l m
    decidable_of_decidable_of_iff (p := i = j ∧ l = m) (.of_eq (Prod.mk.injEq i l j m).symm)
termination_by structural a

end

instance : DecidableEq Finding := decEq

end Finding

/-- What is found wrong with the fields of a record. -/
abbrev Findings := Dict String Finding

namespace Findings

/-- Adds a complaint about a field. A field that has been looked into gets none. -/
def complain (d : Findings) (field : String) (c : Complaint) : Findings :=
  match d.find? field with
  | none => d.insert field (.complaints [c])
  | some (.complaints l) => d.insert field (.complaints (l ++ [c]))
  | some _ => d

/-- Adds what is found inside a field. -/
def lookInto (d : Findings) (field : String) (inner : Findings) : Findings :=
  if inner.isEmpty then d else d.insert field (.inside inner)

end Findings

/-! ### Remarks -/

/-- What is said of the field at a path. -/
structure Remark where
  path : String
  word : String
  deriving DecidableEq, Repr

/-- The order in which the entries of the record at each path are listed. -/
structure Listing where
  list (path : String) : List (String × List Remark) → List (String × List Remark)
  perm : ∀ path l, (list path l).Perm l

/-- Entries listed by their keys, as they are kept. -/
def Listing.byKey : Listing := ⟨fun _ l => l, fun _ l => .refl l⟩

/-- The path of a field of the record at a path. -/
def fieldPath (path field : String) : String :=
  if path.isEmpty then field else path ++ "." ++ field

/-- The path of an item of the list at a path. -/
def itemPath (path : String) (index : Nat) : String :=
  path ++ "[" ++ Nat.repr index ++ "]"

/-- The remarks on the fields of the record at a path, once those on each are known. -/
def Listing.all (order : Listing) (path : String) (l : List (String × List Remark)) : List Remark :=
  (order.list path l).flatMap Prod.snd

namespace Finding

mutual

/-- The remarks on the value at a path. -/
def remarks (order : Listing) (path : String) (f : Finding) : List Remark :=
  match f with
  | complaints l => l.map fun c => ⟨path, c.message.getD c.code⟩
  | inside l => order.all path (ofFields order path l)
  | items l => ofItems order path l
termination_by structural f

/-- The remarks on each field of the record at a path. -/
def ofFields (order : Listing) (path : String) (l : List (String × Finding)) :
    List (String × List Remark) :=
  match l with
  | [] => []
  | e :: l => ofField order path e :: ofFields order path l
termination_by structural l

/-- The remarks on one field. -/
def ofField (order : Listing) (path : String) (e : String × Finding) : String × List Remark :=
  match e with
  | (field, f) => (field, remarks order (fieldPath path field) f)
termination_by structural e

/-- The remarks on the items of the list at a path. -/
def ofItems (order : Listing) (path : String) (l : List (Nat × List (String × Finding))) :
    List Remark :=
  match l with
  | [] => []
  | e :: l => ofItem order path e ++ ofItems order path l
termination_by structural l

/-- The remarks on one item. -/
def ofItem (order : Listing) (path : String) (e : Nat × List (String × Finding)) : List Remark :=
  match e with
  | (index, l) => order.all (itemPath path index) (ofFields order (itemPath path index) l)
termination_by structural e

end

end Finding

/-- All remarks. -/
def Findings.remarks (order : Listing) (d : Findings) : List Remark :=
  (Finding.inside d).remarks order ""

end Slab
