import Mathlib.Data.List.Basic
import Mathlib.Logic.Basic
import Slab.Text.Pattern

/-!
# What a pattern finds

A choice of words between the two ends of a text is found in just the texts that are one of these
words, letter by letter and in any letter case.

* `mem_after_word`, `mem_after_oneOf`: where a part that fits a word or a choice ends;
* `found_whole_iff`: **a choice of words between the ends of a text**;
* `map_fold_eq_iff`: the letter case of a word of ASCII without the letters k and s.
-/

namespace Slab.Text

namespace Pattern

variable {x y : Place} {s w : List Char}

theorem mem_after_letter {c : Char} : y ∈ (letter c).after x ↔
    ∃ d, x.rest = d :: y.rest ∧ fold d = fold c ∧ y.first = false := by
  obtain ⟨first, rest⟩ := x
  obtain ⟨first', rest'⟩ := y
  cases rest with
  | nil => simp [after]
  | cons d rest =>
    by_cases hd : fold d = fold c
    · simp [after, hd, and_comm, eq_comm]
    · simp [after, hd]

/-- A part that fits a word has its letters, in any letter case. -/
theorem mem_after_word : y ∈ (word w).after x ↔
    ∃ u, x.rest = u ++ y.rest ∧ u.map fold = w.map fold ∧ y.first = (x.first && w.isEmpty) := by
  induction w generalizing x with
  | nil =>
    obtain ⟨first, rest⟩ := x
    obtain ⟨first', rest'⟩ := y
    simp only [word, after, List.mem_singleton, Place.mk.injEq, List.map_nil, List.map_eq_nil_iff,
      List.isEmpty_nil, Bool.and_true]
    constructor
    · rintro ⟨rfl, rfl⟩
      exact ⟨[], rfl, rfl, rfl⟩
    · rintro ⟨u, rfl, rfl, rfl⟩
      exact ⟨rfl, rfl⟩
  | cons c w ih =>
    have hboth : (word (c :: w)).after x = ((letter c).after x).flatMap (word w).after := rfl
    simp only [hboth, List.mem_flatMap, mem_after_letter, ih, List.isEmpty_cons, Bool.and_false]
    constructor
    · rintro ⟨z, ⟨d, hx, hd, hz⟩, u, hu, hw, hy⟩
      exact ⟨d :: u, by rw [hx, hu, List.cons_append], by rw [List.map_cons, List.map_cons, hd, hw],
        by rw [hy, hz, Bool.false_and]⟩
    · rintro ⟨u, hx, hu, hy⟩
      cases u with
      | nil => cases hu
      | cons d u =>
        rw [List.map_cons, List.map_cons, List.cons.injEq] at hu
        exact ⟨⟨false, u ++ y.rest⟩, ⟨d, hx, hu.1, rfl⟩, u, rfl, hu.2, hy⟩

theorem mem_after_oneOf {l : List Pattern} :
    y ∈ (oneOf l).after x ↔ ∃ p ∈ l, y ∈ p.after x := by
  induction l with
  | nil => simp [oneOf, after]
  | cons p l ih => simp [oneOf, after, ih]

/-- What has to stand where the text begins is not found behind that place. -/
theorem foundFrom_start (p : Pattern) : (both start p).foundFrom false s = false := by
  induction s with
  | nil => rfl
  | cons c s ih =>
    rw [foundFrom, ih]
    rfl

theorem found_start (p : Pattern) : (both start p).found s = !(p.after ⟨true, s⟩).isEmpty := by
  cases s with
  | nil => simp [found, foundFrom, after]
  | cons c s => simp [found, foundFrom, foundFrom_start, after]

/-- **A choice of words between the two ends of a text is found in just the texts that are one of
the words.** -/
theorem found_whole_iff {words : List (List Char)} :
    (both start (both (oneOf (words.map word)) stop)).found s = true ↔
      ∃ w ∈ words, s.map fold = w.map fold := by
  have hstop : ∀ x : Place, stop.after x ≠ [] ↔ x.rest = [] := by
    intro x
    simp [after]
  rw [found_start, Bool.not_eq_true', List.isEmpty_eq_false_iff, after, Ne, List.flatMap_eq_nil_iff,
    not_forall]
  simp only [Classical.not_imp, mem_after_oneOf, List.mem_map, exists_exists_and_eq_and,
    mem_after_word]
  constructor
  · rintro ⟨y, ⟨w, hw, u, hs, hu, -⟩, hy⟩
    have hs' : s = u ++ y.rest := hs
    rw [(hstop y).1 hy, List.append_nil] at hs'
    exact ⟨w, hw, hs' ▸ hu⟩
  · rintro ⟨w, hw, hs⟩
    refine ⟨⟨true && w.isEmpty, []⟩, ⟨w, hw, s, (List.append_nil s).symm, hs, rfl⟩, ?_⟩
    exact (hstop _).2 rfl

end Pattern

/-! ### Letter case -/

/-- The letters that have a form beyond ASCII, and these forms. -/
def folded : List Char := ['k', 's', '\u212A', '\u017F']

/-- Of any other character there are the two cases that ASCII has. -/
theorem fold_eq_iff {c : Char} (hc : c ∉ folded) (d : Char) : fold d = c ↔ d.toLower = c := by
  simp only [folded, List.mem_cons, List.not_mem_nil, or_false, not_or] at hc
  obtain ⟨hk, hs, hkelvin, hlong⟩ := hc
  unfold fold
  split_ifs with h1 h2
  · have hlower : d.toLower = '\u212A' := by
      rw [h1]
      rfl
    rw [hlower]
    exact ⟨fun h => absurd h.symm hk, fun h => absurd h.symm hkelvin⟩
  · have hlower : d.toLower = '\u017F' := by
      rw [h2]
      rfl
    rw [hlower]
    exact ⟨fun h => absurd h.symm hs, fun h => absurd h.symm hlong⟩
  · exact Iff.rfl

/-- A word in any letter case is the word once its letters are small ones. -/
theorem map_fold_eq_iff {s w : List Char} (hw : ∀ c ∈ w, c ∉ folded ∧ c.toLower = c) :
    s.map fold = w.map fold ↔ s.map Char.toLower = w := by
  have hword : w.map fold = w := by
    conv_rhs => rw [← List.map_id w]
    refine List.map_congr_left fun c hc => ?_
    exact (fold_eq_iff (hw c hc).1 c).2 (hw c hc).2
  rw [hword]
  clear hword
  induction w generalizing s with
  | nil => simp
  | cons c w ih =>
    rw [List.forall_mem_cons] at hw
    cases s with
    | nil => simp
    | cons d s => simp only [List.map_cons, List.cons.injEq, fold_eq_iff hw.1.1, ih hw.2]

end Slab.Text
