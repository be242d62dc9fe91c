import Mathlib.Data.Nat.Notation
import Slab.Number.Numeral
import Slab.Proofs.Text

/-!
# Numerals

Which texts are numerals and which numbers they write, in terms of the digits of the library.

* `Digits`: one or more decimal digits;
* `unsigned?_eq_some_iff`: a number without a sign is digits, after a plus sign or not;
* `unsigned?_decimal`, `signed?_signedDecimal`: a numeral is the number that it writes.
-/

namespace Slab.Numeral

variable {s : List Char} {n bound : ℕ}

/-- One or more decimal digits. -/
structure Digits (s : List Char) : Prop where
  ne_nil : s ≠ []
  isDigit : ∀ c ∈ s, c.isDigit = true

theorem Digits.isBlank_eq (h : Digits s) : ∀ c ∈ s, Text.isBlank c = false := by
  intro c hc
  refine Text.isBlank_of_isAlphanum ?_
  rw [Char.isAlphanum, h.isDigit c hc, Bool.or_true]

theorem value_eq_ofDigitChars (n : ℕ) (l : List Char) : value n l = Nat.ofDigitChars 10 l n := by
  induction l generalizing n with
  | nil => rw [Nat.ofDigitChars_nil]; rfl
  | cons c l ih =>
    rw [Nat.ofDigitChars_cons, Nat.mul_comm, ← ih]
    rfl

theorem toList_decimal (n : ℕ) : (decimal n).toList = Nat.toDigits 10 n := Nat.toList_repr

theorem isDigit_of_mem_decimal {n : ℕ} {c : Char} (h : c ∈ (decimal n).toList) :
    c.isDigit = true := by
  rw [toList_decimal] at h
  exact Nat.isDigit_of_mem_toDigits (by decide) (by decide) h

theorem toList_decimal_ne_nil (n : ℕ) : (decimal n).toList ≠ [] := by
  rw [toList_decimal]
  exact Nat.toDigits_ne_nil

theorem digits_decimal (n : ℕ) : Digits (decimal n).toList where
  ne_nil := toList_decimal_ne_nil n
  isDigit _ hc := isDigit_of_mem_decimal hc

theorem ofDigitChars_decimal (n : ℕ) : Nat.ofDigitChars 10 (decimal n).toList 0 = n := by
  rw [toList_decimal, Nat.ofDigitChars_toDigits (by decide) (by decide)]

theorem isDigit_eq (c : Char) : isDigit c = c.isDigit := by
  simp only [isDigit, Char.isDigit, ge_iff_le, UInt32.le_iff_toNat_le]
  rfl

theorem natural?_eq_some_iff :
    natural? s = some n ↔ Digits s ∧ Nat.ofDigitChars 10 s 0 = n := by
  have hdigits : (!s.isEmpty && s.all isDigit) = true ↔ Digits s := by
    rw [Bool.and_eq_true, Bool.not_eq_true', List.isEmpty_eq_false_iff, List.all_eq_true]
    simp only [isDigit_eq]
    exact ⟨fun h => ⟨h.1, h.2⟩, fun h => ⟨h.1, h.2⟩⟩
  unfold natural?
  rw [← hdigits, value_eq_ofDigitChars]
  split
  · rename_i h
    rw [Option.some_inj, and_iff_right h]
  · rename_i h
    exact ⟨fun hn => (Option.some_ne_none n hn.symm).elim, fun hn => (h hn.1).elim⟩

theorem exists_append_dropPlus (s : List Char) :
    ∃ sign, s = sign ++ dropPlus s ∧ (sign = [] ∨ sign = ['+']) := by
  unfold dropPlus
  split
  · exact ⟨['+'], rfl, Or.inr rfl⟩
  · exact ⟨[], rfl, Or.inl rfl⟩

/-- Digits do not begin with a plus sign. -/
theorem Digits.dropPlus_eq (h : Digits s) : dropPlus s = s := by
  unfold dropPlus
  split
  · have hc := h.isDigit '+' List.mem_cons_self
    exact absurd hc (by decide)
  · rfl

/-- A number without a sign is digits, after a plus sign or not. -/
theorem unsigned?_eq_some_iff :
    unsigned? bound s = some n ↔
      ∃ sign digits, s = sign ++ digits ∧ (sign = [] ∨ sign = ['+']) ∧ Digits digits ∧
        Nat.ofDigitChars 10 digits 0 = n ∧ n < bound := by
  rw [unsigned?, Option.filter_eq_some_iff, natural?_eq_some_iff, decide_eq_true_iff]
  constructor
  · rintro ⟨⟨hd, hv⟩, hlt⟩
    obtain ⟨sign, hs, hsign⟩ := exists_append_dropPlus s
    exact ⟨sign, _, hs, hsign, hd, hv, hlt⟩
  · rintro ⟨sign, digits, rfl, rfl | rfl, hd, hv, hlt⟩
    · rw [List.nil_append, hd.dropPlus_eq]
      exact ⟨⟨hd, hv⟩, hlt⟩
    · exact ⟨⟨hd, hv⟩, hlt⟩

/-- A numeral is the number that it writes. -/
theorem unsigned?_decimal {n bound : ℕ} (h : n < bound) :
    unsigned? bound (decimal n).toList = some n :=
  unsigned?_eq_some_iff.2
    ⟨[], _, rfl, Or.inl rfl, digits_decimal n, ofDigitChars_decimal n, h⟩

theorem natural?_decimal (n : ℕ) : natural? (decimal n).toList = some n :=
  natural?_eq_some_iff.2 ⟨digits_decimal n, ofDigitChars_decimal n⟩

theorem decimal_injective {m n : ℕ} (h : decimal m = decimal n) : m = n := by
  rw [← ofDigitChars_decimal m, h, ofDigitChars_decimal]

/-- A numeral with a sign is the integer that it writes. -/
theorem signed?_signedDecimal {i : ℤ} (h : i.natAbs < signedBound) :
    signed? (signedDecimal i).toList = some i := by
  unfold signedDecimal
  split_ifs with hi
  · have hi' : -(i.natAbs : ℤ) = i := by omega
    rw [String.toList_append]
    show ((natural? (decimal i.natAbs).toList).bind fun n =>
      if n ≤ signedBound then some (-(n : ℤ)) else none) = some i
    rw [natural?_decimal, Option.bind_some, if_pos (Nat.le_of_lt h), hi']
  · have hi' : (i.toNat : ℤ) = i := by omega
    have hlt : i.toNat < signedBound := by omega
    unfold signed?
    split
    · rename_i t ht
      have hminus := (digits_decimal i.toNat).isDigit '-' (ht ▸ List.mem_cons_self)
      exact absurd hminus (by decide)
    · rw [(digits_decimal _).dropPlus_eq, natural?_decimal, Option.bind_some, if_pos hlt, hi']

end Slab.Numeral
