import Mathlib.Data.List.Nodup
import Slab.Pool.Basic

/-!
# The free list as a path through memory

The links of the free slots form a path: it starts at the head, and the link of each slot leads to
the next one until the end marker.

* `Slots.Sound`: what holds of the layout of every pool that gets built;
* `numbers`: the numbers of all slots, in ascending order;
* `Linked g m index l`: the links of `m` lead from `index` through exactly the slots of `l`.

`Linked.chain_eq` says that following the links lists the path, `Linked.congr` that only the links
of the listed slots matter, and `linked_linkSlots` that a new pool's path visits every slot.
-/

namespace Slab.Pool

/-- What holds of the layout of every pool: there are slots, no slot has the number that marks the
end, and every slot is made of whole cache lines. -/
structure Slots.Sound (g : Slots) : Prop where
  capacity_pos : 0 < g.capacity
  capacity_le : g.capacity ≤ nil.toNat
  slotSize_pos : 0 < g.slotSize
  line_dvd : cacheLine ∣ g.slotSize

theorem Slots.Sound.line_le {g : Slots} (h : g.Sound) : cacheLine ≤ g.slotSize :=
  Nat.le_of_dvd h.slotSize_pos h.line_dvd

theorem nil_toNat : nil.toNat = 4294967295 := rfl

/-! ### Slot numbers -/

/-- The numbers of the first `n` slots. -/
def numbers (n : ℕ) : List UInt32 := (List.range n).map UInt32.ofNat

theorem toNat_ofNat_of_le {i n : ℕ} (hn : n ≤ nil.toNat) (hi : i < n) :
    (UInt32.ofNat i).toNat = i := by
  have hsize : UInt32.size = 4294967296 := rfl
  rw [nil_toNat] at hn
  exact UInt32.toNat_ofNat_of_lt' (by omega)

/-- Different slots have different numbers. -/
theorem ofNat_inj_of_lt {i j n : ℕ} (hn : n ≤ nil.toNat) (hi : i < n) (hj : j < n)
    (h : UInt32.ofNat i = UInt32.ofNat j) : i = j := by
  rw [← toNat_ofNat_of_le hn hi, h, toNat_ofNat_of_le hn hj]

@[simp] theorem length_numbers (n : ℕ) : (numbers n).length = n := by simp [numbers]

theorem mem_numbers {n : ℕ} (hn : n ≤ nil.toNat) {i : UInt32} : i ∈ numbers n ↔ i.toNat < n := by
  simp only [numbers, List.mem_map, List.mem_range]
  constructor
  · rintro ⟨k, hk, rfl⟩
    rwa [toNat_ofNat_of_le hn hk]
  · intro hi
    exact ⟨i.toNat, hi, UInt32.ofNat_toNat⟩

theorem nodup_numbers {n : ℕ} (hn : n ≤ nil.toNat) : (numbers n).Nodup := by
  refine List.Nodup.map_on ?_ List.nodup_range
  intro i hi j hj
  exact ofNat_inj_of_lt hn (List.mem_range.1 hi) (List.mem_range.1 hj)

theorem ne_nil_of_lt {n : ℕ} (hn : n ≤ nil.toNat) {i : UInt32} (hi : i.toNat < n) : i ≠ nil := by
  rintro rfl
  omega

/-! ### Places -/

theorem Slots.place_add_le {g : Slots} {i j : UInt32} (h : i.toNat < j.toNat) :
    g.place i + g.slotSize ≤ g.place j := by
  have : (i.toNat + 1) * g.slotSize ≤ j.toNat * g.slotSize := Nat.mul_le_mul_right _ h
  rw [Nat.add_mul, Nat.one_mul] at this
  unfold Slots.place
  omega

/-- Two slots share no byte. -/
theorem Slots.place_disjoint {g : Slots} {i j : UInt32} (h : i ≠ j) :
    g.place i + g.slotSize ≤ g.place j ∨ g.place j + g.slotSize ≤ g.place i := by
  have hne : i.toNat ≠ j.toNat := fun he => h (UInt32.toNat_inj.mp he)
  rcases Nat.lt_or_gt_of_ne hne with hlt | hgt
  · exact Or.inl (place_add_le hlt)
  · exact Or.inr (place_add_le hgt)

/-- The bytes of a slot lie among those of the pool. -/
theorem Slots.place_add_le_end {g : Slots} {i : UInt32} (hi : i.toNat < g.capacity) :
    g.place i + g.slotSize ≤ g.base + g.capacity * g.slotSize := by
  have : (i.toNat + 1) * g.slotSize ≤ g.capacity * g.slotSize := Nat.mul_le_mul_right _ hi
  rw [Nat.add_mul, Nat.one_mul] at this
  unfold Slots.place
  omega

theorem Slots.base_le_place (g : Slots) (i : UInt32) : g.base ≤ g.place i :=
  Nat.le_add_right _ _

/-- Bytes written in one slot leave the links of all others alone. -/
theorem load32_eq_of_other_slot {g : Slots} (hg : g.Sound) {m m' : Memory} {slot i : UInt32}
    (hm : ∀ a, a < g.place slot ∨ g.place slot + g.slotSize ≤ a → m'.load a = m.load a)
    (hi : i ≠ slot) : m'.load32 (g.place i) = m.load32 (g.place i) := by
  have hline := hg.line_le
  have hdis := g.place_disjoint hi
  unfold cacheLine at hline
  exact Memory.load32_congr fun a _ _ => hm a (by omega)

/-- Linking a slot changes no byte outside the slot. -/
theorem load_store32_of_other_slot {g : Slots} (hg : g.Sound) (m : Memory) (slot w : UInt32) (a : ℕ)
    (ha : a < g.place slot ∨ g.place slot + g.slotSize ≤ a) :
    (m.store32 (g.place slot) w).load a = m.load a := by
  have hline := hg.line_le
  unfold cacheLine at hline
  exact Memory.load_store32_of_disjoint m _ w a (by omega)

/-! ### Paths -/

/-- The links lead from `index` through exactly the slots of the list. -/
def Linked (g : Slots) (m : Memory) : UInt32 → List UInt32 → Prop
  | index, [] => index = nil
  | index, i :: l => index = i ∧ i ≠ nil ∧ Linked g m (m.load32 (g.place i)) l

variable {g : Slots} {m m' : Memory} {index : UInt32} {l : List UInt32}

/-- Only the links of the slots on the path matter. -/
theorem Linked.congr (h : Linked g m index l)
    (hm : ∀ i ∈ l, m'.load32 (g.place i) = m.load32 (g.place i)) : Linked g m' index l := by
  induction l generalizing index with
  | nil => exact h
  | cons i l ih =>
    obtain ⟨hi, hn, hl⟩ := h
    refine ⟨hi, hn, ?_⟩
    rw [hm i List.mem_cons_self]
    exact ih hl fun j hj => hm j (List.mem_cons_of_mem i hj)

theorem Linked.eq_nil_of_nil (h : Linked g m index l) (hi : index = nil) : l = [] := by
  cases l with
  | nil => rfl
  | cons i l => exact absurd (h.1.symm.trans hi) h.2.1

/-- A path that does not start at the end marker starts with a slot. -/
theorem Linked.exists_cons (h : Linked g m index l) (hi : index ≠ nil) :
    ∃ rest, l = index :: rest ∧ Linked g m (m.load32 (g.place index)) rest := by
  cases l with
  | nil => exact absurd h hi
  | cons i l =>
    obtain ⟨rfl, -, hl⟩ := h
    exact ⟨l, rfl, hl⟩

/-- Following the links lists the path. -/
theorem Linked.chain_eq {fuel : ℕ} (h : Linked g m index l) (hf : l.length ≤ fuel) :
    chain g m fuel index = l := by
  induction l generalizing index fuel with
  | nil =>
    cases fuel with
    | zero => rfl
    | succ fuel => rw [chain, if_pos (show index = nil from h)]
  | cons i l ih =>
    obtain ⟨rfl, hn, hl⟩ := h
    cases fuel with
    | zero => simp at hf
    | succ fuel => rw [chain, if_neg hn, ih hl (Nat.le_of_succ_le_succ hf)]

/-- The free slots of a pool, when their path is known. -/
theorem Linked.freeSlots_eq {s : Shared} (h : Linked g s.memory s.head.index l)
    (hf : l.length ≤ g.capacity) : s.freeSlots g = l :=
  h.chain_eq (Nat.le_succ_of_le hf)

/-! ### The path of a new pool -/

/-- The memory while the slots are being linked, after the first `n` of them. -/
def linkFirst (g : Slots) (m : Memory) (n : ℕ) : Memory :=
  (List.range n).foldl
    (fun m i => m.store32 (g.place (UInt32.ofNat i)) (nextOf g.capacity i)) m

theorem linkFirst_succ (g : Slots) (m : Memory) (n : ℕ) :
    linkFirst g m (n + 1) =
      (linkFirst g m n).store32 (g.place (UInt32.ofNat n)) (nextOf g.capacity n) := by
  simp [linkFirst, List.range_succ]

/-- Linking the slots changes no byte outside the pool. -/
theorem load_linkFirst (hg : g.Sound) {n : ℕ} (hn : n ≤ g.capacity) {a : ℕ}
    (ha : a < g.base ∨ g.base + g.capacity * g.slotSize ≤ a) :
    (linkFirst g m n).load a = m.load a := by
  induction n with
  | zero => rfl
  | succ n ih =>
    have hlt : (UInt32.ofNat n).toNat < g.capacity := by
      rw [toNat_ofNat_of_le hg.capacity_le hn]; exact hn
    have hend := Slots.place_add_le_end hlt
    have hbase := g.base_le_place (UInt32.ofNat n)
    rw [linkFirst_succ, load_store32_of_other_slot hg _ _ _ a (by omega), ih (by omega)]

theorem load_linkSlots (hg : g.Sound) {a : ℕ}
    (ha : a < g.base ∨ g.base + g.capacity * g.slotSize ≤ a) :
    (linkSlots g m).load a = m.load a :=
  load_linkFirst hg (Nat.le_refl _) ha

theorem load32_linkFirst (hg : g.Sound) {n i : ℕ} (hn : n ≤ g.capacity) (hi : i < n) :
    (linkFirst g m n).load32 (g.place (UInt32.ofNat i)) = nextOf g.capacity i := by
  induction n with
  | zero => omega
  | succ n ih =>
    rw [linkFirst_succ]
    by_cases he : i = n
    · subst he
      exact Memory.load32_store32 _ _ _
    · have hne : UInt32.ofNat i ≠ UInt32.ofNat n :=
        fun h => he (ofNat_inj_of_lt hg.capacity_le (by omega) (by omega) h)
      rw [load32_eq_of_other_slot hg (load_store32_of_other_slot hg _ _ _) hne,
        ih (by omega) (by omega)]

/-- In a new pool the links lead through all slots in ascending order. -/
theorem linked_linkSlots (hg : g.Sound) (m : Memory) :
    Linked g (linkSlots g m) 0 (numbers g.capacity) := by
  -- from slot `k` on, by induction on the number `j` of the slots that are left
  have from_ : ∀ j k, k + j = g.capacity → 0 < j →
      Linked g (linkSlots g m) (UInt32.ofNat k) ((List.range' k j).map UInt32.ofNat) := by
    intro j
    induction j with
    | zero => intro k _ h; omega
    | succ j ih =>
      intro k hk _
      rw [List.range'_succ, List.map_cons]
      have hlt : (UInt32.ofNat k).toNat < g.capacity := by
        rw [toNat_ofNat_of_le hg.capacity_le (show k < g.capacity by omega)]; omega
      refine ⟨rfl, ne_nil_of_lt hg.capacity_le hlt, ?_⟩
      rw [show linkSlots g m = linkFirst g m g.capacity from rfl,
        load32_linkFirst hg (Nat.le_refl _) (by omega)]
      rcases Nat.eq_zero_or_pos j with rfl | hj
      · rw [nextOf, if_pos (by omega)]
        rfl
      · rw [nextOf, if_neg (by omega)]
        exact ih (k + 1) (by omega) hj
  rw [numbers, List.range_eq_range']
  exact from_ g.capacity 0 (Nat.zero_add _) hg.capacity_pos

end Slab.Pool
