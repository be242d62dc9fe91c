import Slab.Text.Cut

/-!
# The block of environment variables

A process holds its variables as one block of bytes: entries that each end in a zero byte, with the
name before the first equals sign and the value after it.

* `Environment.entry?`: the variable of one entry;
* `Environment.ofBlock`: the variables of a block, in its order.
-/

namespace Slab.Environment

/-- The variable of an entry. An equals sign at the very beginning belongs to the name; what is no
text and what names nothing is no variable. -/
def entry? (bytes : List UInt8) : Option (String × String) :=
  match (String.fromUTF8? ⟨bytes.toArray⟩).map String.toList with
  | some (c :: s) =>
    (Text.cutFirst '=' s).map fun p => (String.ofList (c :: p.1), String.ofList p.2)
  | _ => none

/-- The entries of a block. -/
def entries : List UInt8 → List (List UInt8)
  | [] => []
  | b :: rest =>
    if b = 0 then [] :: entries rest
    else
      match entries rest with
      | [] => [[b]]
      | e :: es => (b :: e) :: es

/-- The variables of a block. -/
def ofBlock (block : List UInt8) : List (String × String) := (entries block).filterMap entry?

end Slab.Environment
