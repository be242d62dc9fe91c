import Mathlib.Tactic.Ring
import Slab.Number.Shortest

/-!
# Natural numbers as floating point numbers

The numbers below `2 ^ 53` are floating point numbers themselves, and no rounding takes a number
past one of them.

* `significand n`: the 53 binary digits of a number below `2 ^ 53`;
* `roundedBits_of_lt`, `view_ofRatio`: the bits of such a number and what they mean;
* `plainText_ofRatio`: its text is its numeral;
* `le_ofNat_iff`: a natural number of 64 bits is at most such a number if and only if the nearest
  floating point number is.
-/

namespace Slab.Binary64

variable {n b : ℕ}

theorem two_pow_log2_le (h : n ≠ 0) : 2 ^ n.log2 ≤ n := Nat.log2_self_le h

theorem log2_le_log2 (h0 : n ≠ 0) (h : n ≤ b) : n.log2 ≤ b.log2 :=
  (Nat.le_log2 (by omega)).2 (Nat.le_trans (two_pow_log2_le h0) h)

theorem log2_lt_of_lt {k : ℕ} (h0 : n ≠ 0) (h : n < 2 ^ k) : n.log2 < k := (Nat.log2_lt h0).2 h

/-! ### Units and places -/

/-- In units below one a natural number is a larger natural number. -/
theorem inUnits_of_le {k : ℕ} (n : ℕ) (h : k ≤ 52) :
    inUnits n 1 ((k : ℤ) - 52) = (n * 2 ^ (52 - k), 1) := by
  unfold inUnits
  split_ifs with hneg
  · have habs : ((k : ℤ) - 52).natAbs = 52 - k := by omega
    rw [habs]
    rfl
  · have hk : k = 52 := by omega
    subst hk
    show (n, 1 * 1) = (n * 1, 1)
    rw [Nat.mul_one, Nat.mul_one]

/-- In units from one on it is a ratio. -/
theorem inUnits_of_ge {k : ℕ} (n : ℕ) (h : 52 ≤ k) :
    inUnits n 1 ((k : ℤ) - 52) = (n, 2 ^ (k - 52)) := by
  unfold inUnits
  have habs : ((k : ℤ) - 52).natAbs = k - 52 := by omega
  rw [if_neg (by omega), habs, Nat.one_mul]
  rfl

/-- In units of the last place a number has 53 binary digits before its point. -/
theorem le_inUnits (h0 : n ≠ 0) :
    2 ^ 52 ≤ (inUnits n 1 ((n.log2 : ℤ) - 52)).1 / (inUnits n 1 ((n.log2 : ℤ) - 52)).2 := by
  rcases Nat.le_total n.log2 52 with h | h
  · rw [inUnits_of_le n h, Nat.div_one]
    calc 2 ^ 52 = 2 ^ n.log2 * 2 ^ (52 - n.log2) := by rw [← Nat.pow_add, Nat.add_sub_cancel' h]
      _ ≤ n * 2 ^ (52 - n.log2) := Nat.mul_le_mul_right _ (two_pow_log2_le h0)
  · rw [inUnits_of_ge n h]
    refine (Nat.le_div_iff_mul_le (Nat.two_pow_pos _)).2 ?_
    rw [← Nat.pow_add, Nat.add_sub_cancel' h]
    exact two_pow_log2_le h0

theorem lastPlace_eq (h0 : n ≠ 0) : lastPlace n 1 = (n.log2 : ℤ) - 52 := by
  have hone : (Nat.log2 1 : ℤ) = 0 := rfl
  have hle : ¬ (inUnits n 1 ((n.log2 : ℤ) - 52)).1 / (inUnits n 1 ((n.log2 : ℤ) - 52)).2 <
      Nat.pow 2 52 := Nat.not_lt_of_le (le_inUnits h0)
  unfold lastPlace
  simp only [hone, Int.sub_zero]
  rw [if_neg hle]
  omega

theorem nearest_one (n : ℕ) : nearest n 1 = n := by
  simp [nearest, Nat.mod_one]

/-- The nearest natural number is one of the two around a ratio. -/
theorem nearest_bounds (num den : ℕ) :
    num / den ≤ nearest num den ∧ nearest num den ≤ num / den + 1 := by
  unfold nearest
  dsimp only
  split_ifs <;> omega

/-! ### The bits -/

/-- The 53 binary digits of a positive number below `2 ^ 53`. -/
def significand (n : ℕ) : ℕ := n * 2 ^ (52 - n.log2)

theorem le_significand (h0 : n ≠ 0) (h : n.log2 ≤ 52) : 2 ^ 52 ≤ significand n := by
  have := le_inUnits h0
  rwa [inUnits_of_le n h, Nat.div_one] at this

theorem significand_lt (h : n.log2 ≤ 52) : significand n < 2 ^ 53 := by
  calc significand n < 2 ^ (n.log2 + 1) * 2 ^ (52 - n.log2) :=
        Nat.mul_lt_mul_of_pos_right Nat.lt_log2_self (Nat.two_pow_pos _)
    _ = 2 ^ 53 := by rw [← Nat.pow_add]; congr 1; omega

/-- A number below `2 ^ 53` is not rounded. -/
theorem roundedBits_of_le (h0 : n ≠ 0) (h : n.log2 ≤ 52) :
    roundedBits n 1 = (n.log2 + 1022) * 2 ^ 52 + significand n := by
  have hplace : ((n.log2 : ℤ) - 52 + 1074).toNat = n.log2 + 1022 := by omega
  have hlt := significand_lt h
  unfold roundedBits
  rw [if_neg h0, lastPlace_eq h0]
  simp only [inUnits_of_le n h, nearest_one, hplace]
  refine Nat.min_eq_left ?_
  show (n.log2 + 1022) * 4503599627370496 + significand n ≤ 2047 * 4503599627370496
  omega

/-- The bits of a number of 64 binary digits lie between those of two powers of two. -/
theorem roundedBits_bounds (h0 : n ≠ 0) (h : n < 2 ^ 64) :
    (n.log2 + 1023) * 2 ^ 52 ≤ roundedBits n 1 ∧ roundedBits n 1 ≤ (n.log2 + 1024) * 2 ^ 52 := by
  rcases Nat.le_total n.log2 52 with hk | hk
  · have hle := le_significand h0 hk
    have hlt := significand_lt hk
    rw [roundedBits_of_le h0 hk]
    omega
  · have hlog := log2_lt_of_lt h0 h
    have hplace : ((n.log2 : ℤ) - 52 + 1074).toNat = n.log2 + 1022 := by omega
    have hle := le_inUnits h0
    have hlt : n / 2 ^ (n.log2 - 52) < 2 ^ 53 := by
      refine (Nat.div_lt_iff_lt_mul (Nat.two_pow_pos _)).2 ?_
      rw [← Nat.pow_add]
      refine Nat.lt_of_lt_of_le Nat.lt_log2_self (Nat.pow_le_pow_right (by decide) ?_)
      omega
    simp only [inUnits_of_ge n hk] at hle
    obtain ⟨h1, h2⟩ := nearest_bounds n (2 ^ (n.log2 - 52))
    have hinf : infinityBits = 2047 * 2 ^ 52 := rfl
    unfold roundedBits
    rw [if_neg h0, lastPlace_eq h0]
    simp only [inUnits_of_ge n hk, hplace]
    show (n.log2 + 1023) * 2 ^ 52 ≤ min ((n.log2 + 1022) * 2 ^ 52 + _) infinityBits ∧
      min ((n.log2 + 1022) * 2 ^ 52 + _) infinityBits ≤ _
    rw [hinf]
    omega

/-- Rounding keeps the order of the numbers below `2 ^ 53`. -/
theorem roundedBits_lt (h : n < b) (hb : b < 2 ^ 53) : roundedBits n 1 < roundedBits b 1 := by
  have hb0 : b ≠ 0 := by omega
  have hlog := log2_lt_of_lt hb0 hb
  have hbits := roundedBits_of_le hb0 (Nat.le_of_lt_succ hlog)
  have hle := le_significand hb0 (Nat.le_of_lt_succ hlog)
  rcases eq_or_ne n 0 with rfl | hn0
  · rw [hbits]
    show 0 < _
    omega
  · have hmono := log2_le_log2 hn0 (Nat.le_of_lt h)
    have hlt := significand_lt (n := n) (by omega)
    rw [hbits, roundedBits_of_le hn0 (by omega)]
    rcases Nat.lt_or_eq_of_le hmono with hk | hk
    · omega
    · -- of two numbers with as many digits the larger one has the larger digits
      have hdigits : significand n < significand b := by
        unfold significand
        rw [hk]
        exact Nat.mul_lt_mul_of_pos_right h (Nat.two_pow_pos _)
      omega

/-- No rounding takes a larger number down to a number below `2 ^ 53`. -/
theorem roundedBits_le_iff (hn : n < 2 ^ 64) (hb : b < 2 ^ 53) :
    roundedBits n 1 ≤ roundedBits b 1 ↔ n ≤ b := by
  constructor
  · intro h
    by_contra hlt
    rw [Nat.not_le] at hlt
    rcases Nat.lt_or_ge n (2 ^ 53) with hsmall | hlarge
    · exact absurd (roundedBits_lt hlt hsmall) (Nat.not_lt_of_le h)
    · have hn0 : n ≠ 0 := by omega
      have hlog : 53 ≤ n.log2 := (Nat.le_log2 hn0).2 hlarge
      have hn1 := (roundedBits_bounds hn0 hn).1
      rcases eq_or_ne b 0 with rfl | hb0
      · have hzero : roundedBits 0 1 = 0 := rfl
        omega
      · have hlogb := log2_lt_of_lt hb0 hb
        have hdigits := significand_lt (n := b) (by omega)
        rw [roundedBits_of_le hb0 (by omega)] at h
        omega
  · intro h
    rcases Nat.lt_or_eq_of_le h with hlt | rfl
    · exact Nat.le_of_lt (roundedBits_lt hlt hb)
    · exact Nat.le_refl _

/-! ### What the bits mean -/

theorem toNat_ofMagnitude {negative : Bool} {bits : ℕ} (h : bits < 2 ^ 63) :
    (ofMagnitude negative bits).bits.toNat = if negative then 2 ^ 63 + bits else bits := by
  show (UInt64.ofNat (if negative then 2 ^ 63 + bits else bits)).toNat = _
  rw [UInt64.toNat_ofNat']
  refine Nat.mod_eq_of_lt ?_
  split_ifs <;> omega

theorem magnitudeBits_ofMagnitude {negative : Bool} {bits : ℕ} (h : bits < 2 ^ 63) :
    (ofMagnitude negative bits).magnitudeBits = bits := by
  show (ofMagnitude negative bits).bits.toNat % 2 ^ 63 = bits
  rw [toNat_ofMagnitude h]
  split_ifs <;> omega

theorem isNegative_ofMagnitude {negative : Bool} {bits : ℕ} (h : bits < 2 ^ 63) :
    (ofMagnitude negative bits).isNegative = negative := by
  show decide (2 ^ 63 ≤ (ofMagnitude negative bits).bits.toNat) = negative
  rw [toNat_ofMagnitude h]
  cases negative
  · exact decide_eq_false (by simpa using h)
  · exact decide_eq_true (Nat.le_add_right _ _)

/-- The bits of a positive number with an exponent and 53 digits. -/
theorem view_ofMagnitude {negative : Bool} {e m : ℕ} (he : e < 2046) (hle : 2 ^ 52 ≤ m)
    (hlt : m < 2 ^ 53) :
    (ofMagnitude negative (e * 2 ^ 52 + m)).view = .finite negative m ((e : ℤ) - 1074) := by
  have hbits : e * 2 ^ 52 + m < 2 ^ 63 := by omega
  have hexp : (e * 2 ^ 52 + m) / Nat.pow 2 52 = e + 1 := by
    show (e * 4503599627370496 + m) / 4503599627370496 = e + 1
    omega
  have hfrac : Nat.pow 2 52 + (e * 2 ^ 52 + m) % Nat.pow 2 52 = m := by
    show 4503599627370496 + (e * 4503599627370496 + m) % 4503599627370496 = m
    omega
  have hplace : ((e + 1 : ℕ) : ℤ) - 1075 = (e : ℤ) - 1074 := by omega
  unfold view
  simp only [magnitudeBits_ofMagnitude hbits, isNegative_ofMagnitude hbits, hexp, hfrac, hplace]
  rw [if_neg (by omega), if_neg (by omega)]

theorem roundedBits_lt_limit (h : n < 2 ^ 64) : roundedBits n 1 < 2047 * 2 ^ 52 := by
  rcases eq_or_ne n 0 with rfl | h0
  · decide
  · have hlog := log2_lt_of_lt h0 h
    have := (roundedBits_bounds h0 h).2
    omega

/-- A number below `2 ^ 53` is a floating point number itself. -/
theorem view_ofRatio (negative : Bool) (h0 : n ≠ 0) (h : n.log2 ≤ 52) :
    (ofRatio negative n 1).view =
      .finite negative (significand n) ((n.log2 : ℤ) - 52) := by
  have hplace : ((n.log2 + 1022 : ℕ) : ℤ) - 1074 = (n.log2 : ℤ) - 52 := by omega
  unfold ofRatio
  rw [roundedBits_of_le h0 h,
    view_ofMagnitude (by omega) (le_significand h0 h) (significand_lt h), hplace]

/-- A natural number of 64 bits becomes a finite number. -/
theorem view_ofNat_ne_nan (h : n < 2 ^ 64) : (ofNat n).view ≠ .notANumber := by
  have hbits := roundedBits_lt_limit h
  have hexp : roundedBits n 1 / Nat.pow 2 52 ≠ 2047 := by
    show roundedBits n 1 / 4503599627370496 ≠ 2047
    omega
  have hlt : roundedBits n 1 < 2 ^ 63 := by omega
  unfold ofNat ofRatio view
  simp only [magnitudeBits_ofMagnitude hlt]
  rw [if_neg hexp]
  split_ifs <;> exact View.noConfusion

theorem rank_ofNat (h : n < 2 ^ 64) : (ofNat n).rank = roundedBits n 1 := by
  have hbits := roundedBits_lt_limit h
  have hlt : roundedBits n 1 < 2 ^ 63 := by omega
  unfold ofNat ofRatio rank
  rw [isNegative_ofMagnitude hlt, magnitudeBits_ofMagnitude hlt]
  rfl

/-- **The comparison of the nearest floating point numbers is that of the natural numbers**, where
one of them is below `2 ^ 53`. -/
theorem le_ofNat_iff (hn : n < 2 ^ 64) (hb : b < 2 ^ 53) :
    (ofNat n).le (ofNat b) = true ↔ n ≤ b := by
  have hb' : b < 2 ^ 64 := Nat.lt_trans hb (by decide)
  have hle : (ofNat n).le (ofNat b) = decide ((ofNat n).rank ≤ (ofNat b).rank) := by
    unfold le
    split
    · rename_i h
      exact absurd h (view_ofNat_ne_nan hn)
    · rename_i h _
      exact absurd h (view_ofNat_ne_nan hb')
    · rfl
  rw [hle, decide_eq_true_iff, rank_ofNat hn, rank_ofNat hb', Int.ofNat_le,
    roundedBits_le_iff hn hb]

/-! ### Its text -/

theorem smallNat?_significand (h : n.log2 ≤ 52) :
    smallNat? (significand n) ((n.log2 : ℤ) - 52) = some n := by
  have hlt : n < Nat.pow 2 53 :=
    Nat.lt_of_lt_of_le Nat.lt_log2_self (Nat.pow_le_pow_right (by decide) (by omega))
  unfold smallNat?
  split_ifs with hneg
  · have habs : ((n.log2 : ℤ) - 52).natAbs = 52 - n.log2 := by omega
    have hpos : 0 < Nat.pow 2 (52 - n.log2) := Nat.two_pow_pos _
    have hdigits : significand n = n * Nat.pow 2 (52 - n.log2) := rfl
    simp only [habs, hdigits, Nat.mul_div_cancel _ hpos, Nat.mul_mod_left, beq_self_eq_true,
      Bool.true_and, decide_eq_true hlt, if_true]
  · have habs : ((n.log2 : ℤ) - 52).natAbs = 0 := by omega
    have hdigits : significand n = n := by
      rw [significand, show 52 - n.log2 = 0 by omega]
      exact Nat.mul_one n
    have hone : n * Nat.pow 2 0 = n := Nat.mul_one n
    simp only [habs, hdigits, hone, Bool.true_and, decide_eq_true hlt, if_true]

/-- **A natural number up to `2 ^ 53` is written as its numeral.** -/
theorem plainText_ofRatio (negative : Bool) (h : n ≤ 2 ^ 53) :
    (ofRatio negative n 1).plainText = signText negative ++ Numeral.decimal n := by
  rcases Nat.lt_or_eq_of_le h with hlt | rfl
  · rcases eq_or_ne n 0 with rfl | h0
    · cases negative <;> decide +kernel
    · have hlog := log2_lt_of_lt h0 hlt
      unfold plainText
      rw [view_ofRatio negative h0 (by omega)]
      simp only [smallNat?_significand (show n.log2 ≤ 52 by omega)]
  · -- the first number whose digits are searched for
    cases negative <;> decide +kernel

end Slab.Binary64
