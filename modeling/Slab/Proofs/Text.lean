import Mathlib.Data.List.TakeWhile
import Slab.Text.Blank
import Slab.Text.Cut

/-!
# Texts without outer blanks, and texts in pieces

What trimming and cutting give, in terms of the lists of the library.

* `Blank`, `Trims s t`: a text of blanks, `t` is `s` without the blanks at both ends;
* `trims_iff`: this is what trimming gives;
* `cutFirst_eq_none_iff`, `cutFirst_append`, `pieces_append`: where a text is cut first;
* `pieces_eq_splitOn`, `joinWith_eq_intercalate`: cutting into pieces, and joining them.
-/

namespace Slab.Text

variable {c : Char} {s t a b : List Char}

/-! ### Blanks -/

theorem isAlpha_iff_toNat :
    c.isAlpha = true ↔ (65 ≤ c.toNat ∧ c.toNat ≤ 90) ∨ (97 ≤ c.toNat ∧ c.toNat ≤ 122) := by
  change (decide (c.val ≥ 'A'.val ∧ c.val ≤ 'Z'.val) ||
    (decide (c.val ≥ 'a'.val) && decide (c.val ≤ 'z'.val))) = true ↔ _
  simp only [Bool.or_eq_true, Bool.and_eq_true, decide_eq_true_eq, UInt32.le_iff_toNat_le,
    ge_iff_le]
  rfl

theorem isDigit_iff_toNat : c.isDigit = true ↔ 48 ≤ c.toNat ∧ c.toNat ≤ 57 := by
  simp only [Char.isDigit, Bool.and_eq_true, decide_eq_true_eq, UInt32.le_iff_toNat_le, ge_iff_le]
  rfl

theorem isBlank_of_isAlphanum (hc : c.isAlphanum = true) : isBlank c = false := by
  have h : ((65 ≤ c.toNat ∧ c.toNat ≤ 90) ∨ (97 ≤ c.toNat ∧ c.toNat ≤ 122)) ∨
      (48 ≤ c.toNat ∧ c.toNat ≤ 57) := by
    rwa [Char.isAlphanum, Bool.or_eq_true, isAlpha_iff_toNat, isDigit_iff_toNat] at hc
  simp only [isBlank, Bool.or_eq_false_iff, Bool.and_eq_false_iff, beq_eq_false_iff_ne,
    decide_eq_false_iff_not]
  omega

/-- The text has no characters but blanks. -/
def Blank (s : List Char) : Prop := ∀ c ∈ s, isBlank c = true

/-- What is left of `s` without the blanks at its two ends. -/
structure Trims (s t : List Char) : Prop where
  blanks : ∃ before after, s = before ++ t ++ after ∧ Blank before ∧ Blank after
  head : ∀ c ∈ t.head?, isBlank c = false
  last : ∀ c ∈ t.getLast?, isBlank c = false

theorem Blank.dropWhile_append (h : Blank a) (s : List Char) :
    (a ++ s).dropWhile isBlank = s.dropWhile isBlank :=
  List.dropWhile_append_of_pos h

theorem Blank.reverse (h : Blank a) : Blank a.reverse := fun c hc => h c (List.mem_reverse.1 hc)

theorem dropWhile_of_head (h : ∀ c ∈ s.head?, isBlank c = false) : s.dropWhile isBlank = s := by
  cases s with
  | nil => rfl
  | cons c s =>
    refine List.dropWhile_cons_of_neg ?_
    rw [h c rfl]
    exact Bool.false_ne_true

theorem head_dropWhile (s : List Char) : ∀ c ∈ (s.dropWhile isBlank).head?, isBlank c = false := by
  intro c hc
  have h := List.head?_dropWhile_not isBlank s
  rw [hc] at h
  exact h

theorem blank_takeWhile (s : List Char) : Blank (s.takeWhile isBlank) :=
  fun _ hc => List.mem_takeWhile_imp hc

theorem trims_trim (s : List Char) : Trims s (trim s) := by
  have hstart : s = s.takeWhile isBlank ++ trimStart s :=
    (List.takeWhile_append_dropWhile (p := isBlank) (l := s)).symm
  have hend (u : List Char) : u = trimEnd u ++ (u.reverse.takeWhile isBlank).reverse := by
    rw [trimEnd, ← List.reverse_append, List.takeWhile_append_dropWhile, List.reverse_reverse]
  refine ⟨⟨_, _, ?_, blank_takeWhile s, (blank_takeWhile (trimStart s).reverse).reverse⟩, ?_, ?_⟩
  · rw [List.append_assoc, trim, ← hend, ← hstart]
  · intro c hc
    -- what is left at the end begins like what is left at the start
    have hend' : (trimEnd (trimStart s)).head? = some c := hc
    refine head_dropWhile s c ?_
    show (trimStart s).head? = some c
    rw [hend (trimStart s), List.head?_append, hend']
    rfl
  · rw [trim, trimEnd, List.getLast?_reverse]
    exact head_dropWhile _

theorem Trims.trim_eq (h : Trims s t) : trim s = t := by
  obtain ⟨⟨before, after, rfl, hbefore, hafter⟩, hhead, hlast⟩ := h
  rw [trim, trimStart, List.append_assoc, hbefore.dropWhile_append]
  cases t with
  | nil =>
    rw [List.nil_append, List.dropWhile_eq_nil_iff.2 hafter]
    rfl
  | cons c t =>
    have hstart : (c :: t ++ after).dropWhile isBlank = c :: t ++ after := dropWhile_of_head hhead
    have hend : (c :: t).reverse.dropWhile isBlank = (c :: t).reverse :=
      dropWhile_of_head (by rwa [List.head?_reverse])
    rw [hstart, trimEnd, List.reverse_append, hafter.reverse.dropWhile_append, hend,
      List.reverse_reverse]

/-- Trimming takes the blanks at both ends away. -/
theorem trims_iff : Trims s t ↔ trim s = t :=
  ⟨Trims.trim_eq, fun h => h ▸ trims_trim s⟩

theorem trim_eq_self (h : ∀ c ∈ s, isBlank c = false) : trim s = s := by
  refine Trims.trim_eq ⟨⟨[], [], ?_, List.forall_mem_nil _, List.forall_mem_nil _⟩, ?_, ?_⟩
  · rw [List.nil_append, List.append_nil]
  · exact fun c hc => h c (List.mem_of_mem_head? hc)
  · exact fun c hc => h c (List.mem_of_mem_getLast? hc)

/-! ### Pieces -/

theorem cutFirst_eq_none_iff : cutFirst c s = none ↔ c ∉ s := by
  induction s with
  | nil => simp [cutFirst]
  | cons d s ih =>
    unfold cutFirst
    split
    · rename_i h
      simp [h]
    · rename_i h
      rw [Option.map_eq_none_iff, ih, List.mem_cons, not_or]
      exact ⟨fun hs => ⟨fun he => h he.symm, hs⟩, And.right⟩

/-- A text is cut at the first place. -/
theorem cutFirst_append (h : c ∉ a) (b : List Char) : cutFirst c (a ++ c :: b) = some (a, b) := by
  induction a with
  | nil => simp [cutFirst]
  | cons d a ih =>
    rw [List.mem_cons, not_or] at h
    rw [List.cons_append, cutFirst, if_neg fun he => h.1 he.symm, ih h.2]
    rfl

/-- The first piece ends at the first place. -/
theorem pieces_append (h : c ∉ a) (b : List Char) :
    pieces c (a ++ c :: b) = a :: pieces c b := by
  induction a with
  | nil => simp [pieces]
  | cons d a ih =>
    rw [List.mem_cons, not_or] at h
    rw [List.cons_append, pieces, if_neg fun he => h.1 he.symm, ih h.2]

theorem pieces_eq_splitOn (c : Char) (s : List Char) : pieces c s = s.splitOn c := by
  induction s with
  | nil => rfl
  | cons d s ih =>
    rw [List.splitOn_cons_eq_if_modifyHead, pieces, ih]
    simp only [beq_iff_eq]
    split
    · rfl
    · cases h : s.splitOn c with
      | nil => exact absurd h (List.splitOn_ne_nil c s)
      | cons p ps => rfl

theorem joinWith_eq_intercalate (c : Char) (l : List (List Char)) :
    joinWith c l = List.intercalate [c] l := by
  induction l with
  | nil => rfl
  | cons p l ih =>
    cases l with
    | nil => rw [joinWith, List.intercalate_singleton]
    | cons q l =>
      rw [joinWith, ih, List.intercalate_cons_cons, List.append_assoc]
      · rfl
      · exact List.cons_ne_nil q l

/-- What is true of `c` and of the characters of all parts. -/
theorem forall_mem_joinWith {p : Char → Prop} (hc : p c) {l : List (List Char)}
    (h : ∀ s ∈ l, ∀ d ∈ s, p d) : ∀ d ∈ joinWith c l, p d := by
  induction l with
  | nil => exact List.forall_mem_nil _
  | cons s l ih =>
    rw [List.forall_mem_cons] at h
    cases l with
    | nil => exact h.1
    | cons t l =>
      rw [joinWith]
      · exact List.forall_mem_append.2 ⟨h.1, List.forall_mem_cons.2 ⟨hc, ih h.2⟩⟩
      · exact List.cons_ne_nil t l

end Slab.Text
