/-!
# Sizes

Sizes, offsets and addresses are natural numbers that a machine word of 64 bits has to hold.

* `limit`, `largest`: the first size that is too large, and the largest one;
* `roundUp unit n`: the least multiple of `unit` that is at least `n`;
* `roundUp?`, `mul?`: the same and the product, `none` where the result leaves the word;
* `satMul`, `satRoundUp`: the result cut off at the largest size instead.

`le_roundUp`, `dvd_roundUp` and `roundUp_le` say that `roundUp` is the least such multiple.
-/

namespace Slab.Size

/-- The first size that no machine word holds. -/
def limit : Nat := UInt64.size

/-- The largest size. -/
def largest : Nat := limit - 1

/-- The least multiple of `unit` that is at least `n`. -/
def roundUp (unit n : Nat) : Nat := (n + (unit - 1)) / unit * unit

/-- The least multiple of `unit` that is at least `n`, if a machine word holds it. -/
def roundUp? (unit n : Nat) : Option Nat :=
  if roundUp unit n < limit then some (roundUp unit n) else none

/-- The least multiple of `unit` that is at least `n`, the largest size in place of one too large.
-/
def satRoundUp (unit n : Nat) : Nat := (roundUp? unit n).getD largest

/-- The product, if a machine word holds it. -/
def mul? (a b : Nat) : Option Nat := if a * b < limit then some (a * b) else none

/-- The product, the largest size in place of one too large. -/
def satMul (a b : Nat) : Nat := min (a * b) largest

theorem dvd_roundUp (unit n : Nat) : unit ∣ roundUp unit n :=
  ⟨(n + (unit - 1)) / unit, by rw [roundUp, Nat.mul_comm]⟩

theorem le_roundUp {unit : Nat} (h : 0 < unit) (n : Nat) : n ≤ roundUp unit n := by
  have key := Nat.lt_div_mul_add (a := n + (unit - 1)) h
  unfold roundUp
  omega

theorem roundUp_le {unit n m : Nat} (h : unit ∣ m) (hn : n ≤ m) : roundUp unit n ≤ m := by
  obtain ⟨k, rfl⟩ := h
  rcases Nat.eq_zero_or_pos unit with rfl | hu
  · simp [roundUp]
  · have : (n + (unit - 1)) / unit ≤ k := by
      have hlt : n + (unit - 1) < unit * (k + 1) := by rw [Nat.mul_add]; omega
      exact Nat.lt_succ_iff.mp (Nat.div_lt_of_lt_mul hlt)
    rw [roundUp, Nat.mul_comm unit k]
    exact Nat.mul_le_mul_right unit this

theorem roundUp_eq_self {unit n : Nat} (hu : 0 < unit) (h : unit ∣ n) : roundUp unit n = n :=
  Nat.le_antisymm (roundUp_le h (Nat.le_refl n)) (le_roundUp hu n)

theorem roundUp?_eq_some_iff {unit n m : Nat} :
    roundUp? unit n = some m ↔ roundUp unit n = m ∧ m < limit := by
  unfold roundUp?
  split <;> simp_all <;> omega

theorem satMul_of_lt {a b : Nat} (h : a * b < limit) : satMul a b = a * b :=
  Nat.min_eq_left (Nat.le_sub_one_of_lt h)

theorem satMul_of_le {a b : Nat} (h : limit ≤ a * b) : satMul a b = largest :=
  Nat.min_eq_right (Nat.le_trans (Nat.sub_le _ _) h)

end Slab.Size
