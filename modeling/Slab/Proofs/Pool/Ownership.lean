import Mathlib.Data.List.Perm.Basic
import Slab.Proofs.Pool.Crew

/-!
# Who has a slot that is out

Each slot that is out is in exactly one pair of hands: it is held, or one call has it.

* `Owners held o out`: the slots of `out` are those in `held` and those that `o` gives to a call,
  no slot twice.

The lemmas say how the ownership changes when a slot changes hands: `Owners.give` and
`Owners.hand` between callers and calls, `Owners.pop` and `Owners.push` between calls and the free
list.
-/

namespace Slab.Pool

variable {ι : Type}

/-- The slots of `out` are those in `held` and those that `o` gives to a call, no slot twice. -/
structure Owners (held : List UInt32) (o : ι → Option UInt32) (out : List UInt32) : Prop where
  held_nodup : held.Nodup
  not_held : ∀ t i, o t = some i → i ∉ held
  unique : ∀ t u i, o t = some i → o u = some i → t = u
  mem_out : ∀ i, i ∈ out ↔ i ∈ held ∨ ∃ t, o t = some i

namespace Owners

variable {held out : List UInt32} {o : ι → Option UInt32} {t : ι} {i : UInt32}

theorem none : Owners [] (fun _ : ι => Option.none) [] where
  held_nodup := List.nodup_nil
  not_held := by simp
  unique := by simp
  mem_out := by simp

theorem mem_of_held (h : Owners held o out) (hi : i ∈ held) : i ∈ out :=
  (h.mem_out i).2 (Or.inl hi)

theorem mem_of_owned (h : Owners held o out) (hi : o t = some i) : i ∈ out :=
  (h.mem_out i).2 (Or.inr ⟨t, hi⟩)

variable [DecidableEq ι]

/-- What has to be seen when the hands of the call of `t` change: the others keep their slots, and
its slot, if it has one, is nobody else's. -/
theorem update {held' out' : List UInt32} {y : Option UInt32} (h : Owners held o out)
    (hnodup : held'.Nodup)
    (hothers : ∀ u, u ≠ t → ∀ i, o u = some i → i ∉ held' ∧ y ≠ some i)
    (hmine : ∀ i, y = some i → i ∉ held')
    (hout : ∀ i, i ∈ out' ↔ i ∈ held' ∨ y = some i ∨ ∃ u, u ≠ t ∧ o u = some i) :
    Owners held' (Function.update o t y) out' where
  held_nodup := hnodup
  not_held := by
    intro u i hu
    rcases eq_or_ne u t with rfl | hne
    · rw [Function.update_self] at hu
      exact hmine i hu
    · rw [Function.update_of_ne hne] at hu
      exact (hothers u hne i hu).1
  unique := by
    intro u v i hu hv
    by_cases hut : u = t <;> by_cases hvt : v = t
    · rw [hut, hvt]
    · rw [hut, Function.update_self] at hu
      rw [Function.update_of_ne hvt] at hv
      exact absurd hu (hothers v hvt i hv).2
    · rw [Function.update_of_ne hut] at hu
      rw [hvt, Function.update_self] at hv
      exact absurd hv (hothers u hut i hu).2
    · rw [Function.update_of_ne hut] at hu
      rw [Function.update_of_ne hvt] at hv
      exact h.unique u v i hu hv
  mem_out := by
    intro i
    rw [hout]
    refine or_congr_right ⟨?_, ?_⟩
    · rintro (hy | ⟨u, hut, hu⟩)
      · exact ⟨t, by rw [Function.update_self, hy]⟩
      · exact ⟨u, by rw [Function.update_of_ne hut, hu]⟩
    · rintro ⟨u, hu⟩
      rcases eq_or_ne u t with rfl | hne
      · rw [Function.update_self] at hu
        exact Or.inl hu
      · rw [Function.update_of_ne hne] at hu
        exact Or.inr ⟨u, hne, hu⟩

/-- A call that has no slot takes over a held one. -/
theorem give (h : Owners held o out) (ht : o t = Option.none) (hi : i ∈ held) :
    Owners (held.erase i) (Function.update o t (some i)) out := by
  have hmem : ∀ j, j ∈ held.erase i ↔ j ≠ i ∧ j ∈ held := fun j => h.held_nodup.mem_erase_iff
  refine h.update (h.held_nodup.erase i) ?_ ?_ ?_
  · intro u _ j hu
    have hj := h.not_held u j hu
    refine ⟨fun he => hj ((hmem j).1 he).2, ?_⟩
    rintro ⟨⟩
    exact hj hi
  · rintro j ⟨⟩ hj
    exact ((hmem i).1 hj).1 rfl
  · intro j
    rw [h.mem_out, hmem]
    have hother : (∃ u, o u = some j) ↔ ∃ u, u ≠ t ∧ o u = some j := by
      refine ⟨fun ⟨u, hu⟩ => ⟨u, ?_, hu⟩, fun ⟨u, _, hu⟩ => ⟨u, hu⟩⟩
      rintro rfl
      rw [ht] at hu
      cases hu
    rw [hother, Option.some.injEq]
    by_cases hj : j = i
    · subst hj
      simp [hi]
    · simp [hj, Ne.symm hj]

/-- A call hands its slot to its caller. -/
theorem hand (h : Owners held o out) (ht : o t = some i) :
    Owners (i :: held) (Function.update o t Option.none) out := by
  refine h.update (List.nodup_cons.2 ⟨h.not_held t i ht, h.held_nodup⟩) ?_ (by simp) ?_
  · intro u hut j hu
    refine ⟨?_, by simp⟩
    rw [List.mem_cons]
    rintro (rfl | hj)
    · exact hut (h.unique u t j hu ht)
    · exact h.not_held u j hu hj
  · intro j
    rw [h.mem_out, List.mem_cons]
    constructor
    · rintro (hj | ⟨u, hu⟩)
      · exact Or.inl (Or.inr hj)
      · rcases eq_or_ne u t with rfl | hne
        · rw [ht] at hu
          exact Or.inl (Or.inl (Option.some.inj hu).symm)
        · exact Or.inr (Or.inr ⟨u, hne, hu⟩)
    · rintro ((rfl | hj) | hy | ⟨u, -, hu⟩)
      · exact Or.inr ⟨t, ht⟩
      · exact Or.inl hj
      · cases hy
      · exact Or.inr ⟨u, hu⟩

/-- A call that has no slot takes one off the free list. -/
theorem pop (h : Owners held o out) (ht : o t = Option.none) (hi : i ∉ out) :
    Owners held (Function.update o t (some i)) (i :: out) := by
  refine h.update h.held_nodup ?_ ?_ ?_
  · intro u _ j hu
    refine ⟨h.not_held u j hu, ?_⟩
    rintro ⟨⟩
    exact hi (h.mem_of_owned hu)
  · rintro j ⟨⟩ hj
    exact hi (h.mem_of_held hj)
  · intro j
    rw [List.mem_cons, h.mem_out, Option.some.injEq]
    constructor
    · rintro (rfl | hj | ⟨u, hu⟩)
      · exact Or.inr (Or.inl rfl)
      · exact Or.inl hj
      · refine Or.inr (Or.inr ⟨u, ?_, hu⟩)
        rintro rfl
        rw [ht] at hu
        cases hu
    · rintro (hj | rfl | ⟨u, -, hu⟩)
      · exact Or.inr (Or.inl hj)
      · exact Or.inl rfl
      · exact Or.inr (Or.inr ⟨u, hu⟩)

/-- A call puts its slot on the free list. -/
theorem push (h : Owners held o out) (hout : out.Nodup) (ht : o t = some i) :
    Owners held (Function.update o t Option.none) (out.erase i) := by
  refine h.update h.held_nodup (fun u _ j hu => ⟨h.not_held u j hu, by simp⟩) (by simp) ?_
  intro j
  rw [hout.mem_erase_iff, h.mem_out]
  constructor
  · rintro ⟨hj, hh | ⟨u, hu⟩⟩
    · exact Or.inl hh
    · refine Or.inr (Or.inr ⟨u, ?_, hu⟩)
      rintro rfl
      rw [ht] at hu
      exact hj (Option.some.inj hu).symm
  · rintro (hh | hy | ⟨u, hut, hu⟩)
    · refine ⟨?_, Or.inl hh⟩
      rintro rfl
      exact h.not_held t j ht hh
    · cases hy
    · refine ⟨?_, Or.inr ⟨u, hu⟩⟩
      rintro rfl
      exact hut (h.unique u t j hu ht)

end Owners
end Slab.Pool
