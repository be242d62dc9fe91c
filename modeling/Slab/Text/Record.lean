/-!
# Records as text

A record as its name and, between braces, its fields with their values.
-/

namespace Slab.Text

/-- The text of a record. -/
def record (name : String) (fields : List (String × String)) : String :=
  name ++ String.ofList [' ', '\x7b', ' '] ++
    ", ".intercalate (fields.map fun f => f.1 ++ ": " ++ f.2) ++ String.ofList [' ', '\x7d']

/-- A truth value as text. -/
def flag (b : Bool) : String := if b then "true" else "false"

/-- What stands in a text for an address, which differs from run to run. -/
def withheldAddress : String := "0xADDR"

/-- What stands in a text for another value that the machine decides. -/
def withheld : String := "_"

end Slab.Text
