import Slab.Settings.VariableValue
import Slab.Text.Cut

/-!
# Settings in environment variables

Variables whose names begin with `HOTPOOL_`, in any letter case, hold settings: two underscores in
the rest of a name stand between the keys of a path, and letter case does not count.

* `Variables.path?`: the path that a name stands for;
* `Variables.tree`: the settings of all variables, a later one laid over the earlier ones.
-/

namespace Slab.Variables

/-- The beginning of the names, in small letters. -/
def start : List Char := "hotpool_".toList

/-- The text with a point in place of any two underscores. -/
def pointed : List Char → List Char
  | '_' :: '_' :: s => '.' :: pointed s
  | c :: s => c :: pointed s
  | [] => []

/-- The path that a name stands for, unless one of its keys is empty. -/
def path? (name : String) : Option (List String) :=
  match VariableValue.dropStart? start ((Text.trim name.toList).map Char.toLower) with
  | none => none
  | some rest =>
    let keys := Text.pieces '.' (Text.trim (pointed rest))
    if keys.any List.isEmpty then none else some (keys.map String.ofList)

/-- What one variable says. -/
def layer (entry : String × String) : Tree :=
  match path? entry.1 with
  | none => .map []
  | some path => Tree.nest path (VariableValue.read entry.2)

/-- What variables say, in the order in which they are listed. -/
def tree (environment : List (String × String)) : Tree :=
  environment.foldl (fun t e => t.merge (layer e)) (.map [])

end Slab.Variables
