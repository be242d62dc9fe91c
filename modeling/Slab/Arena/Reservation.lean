import Slab.Arena.Basic

/-!
# Carving regions off an arena

A call that carves a region off reads the cursor and then exchanges it for the end of the new
region, which fails when another call has moved the cursor in between, and may fail for no reason at
all; it then goes on with the cursor it was shown. Each step touches the cursor once, so calls of
several threads are interleavings of steps.

* `Reservation`, `Reservation.step`: a call between two of its steps, and one step;
* `Arena.reserve`: a call that nobody interferes with.

`reserve_eq` says what such a call does: it gives the bytes asked for, in whole cache lines, if
there are any and they fit.
-/

namespace Slab

/-- A call that carves a region off, between two of its steps. -/
inductive Reservation
  /-- About to read the cursor, for a region of so many bytes. -/
  | started (length : Nat)
  /-- About to exchange the cursor that was read. -/
  | seen (length cursor : Nat)
  | granted (region : Region)
  | refused
  deriving DecidableEq, Repr

namespace Reservation

/-- A call for so many bytes, in whole cache lines. -/
def start (bytes : Nat) : Reservation :=
  if bytes = 0 then refused
  else
    match Size.roundUp? cacheLine bytes with
    | none => refused
    | some length => started length

/-- One step. `spurious` says that an exchange that could succeed fails nevertheless. -/
def step (spurious : Bool) (a : Arena) : Reservation → Arena × Reservation
  | started length => (a, seen length a.cursor)
  | seen length cursor =>
    if cursor + length ≤ a.size then
      if a.cursor = cursor ∧ spurious = false then
        ({ a with cursor := cursor + length }, granted ⟨a.base + cursor, cursor, length⟩)
      else (a, seen length a.cursor)
    else (a, refused)
  | granted region => (a, granted region)
  | refused => (a, refused)

/-- The region of a call that has got one. -/
def region? : Reservation → Option Region
  | granted region => some region
  | _ => none

end Reservation

/-- Carves a region off, with nobody interfering: the two steps suffice. -/
def Arena.reserve (a : Arena) (bytes : Nat) : Arena × Option Region :=
  let (a, call) := Reservation.step false a (.start bytes)
  let (a, call) := Reservation.step false a call
  (a, call.region?)

theorem Arena.reserve_eq (a : Arena) (bytes : Nat) :
    a.reserve bytes =
      match Size.roundUp? cacheLine bytes with
      | none => (a, none)
      | some length =>
        if bytes ≠ 0 ∧ a.cursor + length ≤ a.size then
          ({ a with cursor := a.cursor + length }, some ⟨a.base + a.cursor, a.cursor, length⟩)
        else (a, none) := by
  unfold Arena.reserve Reservation.start
  by_cases h0 : bytes = 0
  · subst h0
    simp only [if_pos, Reservation.step, Reservation.region?]
    split <;> simp
  · rw [if_neg h0]
    cases Size.roundUp? cacheLine bytes with
    | none => rfl
    | some length =>
      simp only [Reservation.step]
      by_cases hf : a.cursor + length ≤ a.size
      · simp [hf, h0, Reservation.region?]
      · simp [hf, Reservation.region?]

end Slab
