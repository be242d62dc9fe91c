/-!
# Dictionaries

Finite maps as lists of entries, in ascending order of their keys when built by `insert`.

* `Dict.find?`, `Dict.insert`, `Dict.erase`: looking up, replacing or adding, and removing an entry;
* `Dict.ofList`: the entries of a list, of those with equal keys the last.

`find?_insert` and `find?_erase` say what a look-up finds afterwards, for every list.
-/

namespace Slab

/-- Entries, each a key with what belongs to it. -/
abbrev Dict (κ : Type) (α : Type u) : Type u := List (κ × α)

namespace Dict

variable {κ : Type} {α : Type u} [DecidableEq κ]

/-- What belongs to a key. -/
def find? : Dict κ α → κ → Option α
  | [], _ => none
  | (k, a) :: d, x => if x = k then some a else find? d x

/-- The dictionary without a key. -/
def erase (d : Dict κ α) (x : κ) : Dict κ α := d.filter fun e => e.1 ≠ x

variable [LT κ] [DecidableLT κ]

/-- The dictionary with `a` for the key `x`. -/
def insert : Dict κ α → κ → α → Dict κ α
  | [], x, a => [(x, a)]
  | (k, b) :: d, x, a =>
    if x = k then (x, a) :: d
    else if x < k then (x, a) :: (k, b) :: d
    else (k, b) :: insert d x a

/-- The entries of a list, of those with equal keys the last. -/
def ofList (l : List (κ × α)) : Dict κ α := l.foldl (fun d e => d.insert e.1 e.2) []

omit [LT κ] [DecidableLT κ] in
theorem find?_erase (d : Dict κ α) (x y : κ) :
    (d.erase x).find? y = if y = x then none else d.find? y := by
  induction d with
  | nil => simp [erase, find?]
  | cons e d ih =>
    obtain ⟨k, b⟩ := e
    simp only [erase] at ih
    simp only [erase, List.filter_cons, find?]
    by_cases hk : k = x
    · subst hk
      simp only [ne_eq, not_true_eq_false, decide_false, Bool.false_eq_true, if_false, ih]
      split <;> rfl
    · simp only [ne_eq, hk, not_false_eq_true, decide_true, if_true, find?, ih]
      by_cases hy : y = k
      · subst hy; simp [hk]
      · simp [hy]

theorem find?_insert (d : Dict κ α) (x : κ) (a : α) (y : κ) :
    (d.insert x a).find? y = if y = x then some a else d.find? y := by
  induction d with
  | nil => rfl
  | cons e d ih =>
    obtain ⟨k, b⟩ := e
    unfold insert
    split
    · rename_i h
      subst h
      simp only [find?]
      split <;> rfl
    · split
      · simp only [find?]
      · rename_i h _
        simp only [find?, ih]
        by_cases hy : y = k
        · subst hy
          rw [if_pos rfl, if_neg (fun e => h e.symm), if_pos rfl]
        · rw [if_neg hy, if_neg hy]

end Dict
end Slab
