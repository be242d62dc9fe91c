import Slab.Proofs.Pool.Chain

/-!
# New pools

What is known of a pool when it has just been built.

* `Built shape p m m'`: `p` is a pool for elements of `shape` that has just been built, which turned
  the memory `m` into `m'`;
* `New p m`: one of the constructors gave `p` and left the memory `m`.

`built_of_inRegion` and `built_of_withSlotSize` read `Built` off a successful construction;
`withSlotSize_eq_ok` and `withSlotSize_eq_error` say when there is one and when there is not.
-/

namespace Slab.Pool

/-- A pool that has just been built, with the memory before and after. -/
structure Built (shape : Shape) (p : Pool) (m m' : Memory) : Prop where
  sound : p.slots.Sound
  shape_eq : p.shape = shape
  align_le : shape.align ≤ cacheLine
  size_le : shape.size ≤ p.slotSize
  fits : p.capacity * p.slotSize ≤ p.region.length
  head_eq : p.head = ⟨0, 0⟩
  counters_eq : p.counters = {}
  memory_eq : m' = linkSlots p.slots m

/-- A pool that a constructor has just given, with the memory that it left. -/
inductive New : Pool → Memory → Prop
  | inRegion {shape : Shape} {capacity asked : ℕ} {region : Region} {m m' : Memory} {p : Pool}
      (h : Pool.inRegion shape capacity asked region m = .ok (p, m')) : New p m'
  | onArena {shape : Shape} {capacity asked : ℕ} {a a' : Arena} {p : Pool}
      (h : Pool.withSlotSize shape capacity asked a = .ok (p, a')) : New p a'.memory

theorem bind_eq_ok {ε α β : Type} {x : Except ε α} {f : α → Except ε β} {b : β}
    (h : x >>= f = .ok b) : ∃ a, x = .ok a ∧ f a = .ok b := by
  cases x with
  | error e => cases h
  | ok a => exact ⟨a, rfl, h⟩

/-- A request that is refused with the right error, and granted otherwise, fails just so. -/
theorem eq_error_iff {ε α : Type} {refused : ε → Prop} {x : Except ε α} {e : ε}
    (hrefused : ∀ e, refused e → x = .error e)
    (hgranted : (∀ e, ¬ refused e) → ∃ y, x = .ok y) : x = .error e ↔ refused e := by
  refine ⟨fun he => ?_, hrefused e⟩
  by_cases h : ∃ e', refused e'
  · obtain ⟨e', he'⟩ := h
    rw [hrefused e' he'] at he
    cases he
    exact he'
  · obtain ⟨y, hy⟩ := hgranted (not_exists.1 h)
    rw [he] at hy
    cases hy

/-- The layout that a successful computation of the slot size has checked. -/
theorem slotBytes_eq_ok {shape : Shape} {capacity asked n : ℕ}
    (h : slotBytes shape capacity asked = .ok n) :
    0 < capacity ∧ capacity ≤ nil.toNat ∧ shape.align ≤ cacheLine ∧ asked ≤ n ∧ shape.size ≤ n ∧
      0 < n ∧ cacheLine ∣ n := by
  unfold slotBytes at h
  split_ifs at h with h0 h1 h2
  split at h
  · rename_i m hm
    obtain ⟨rfl, -⟩ := Size.roundUp?_eq_some_iff.1 hm
    cases h
    have hle := Size.le_roundUp (show 0 < cacheLine by decide)
      (max (max asked shape.size) linkBytes)
    have hlink : 0 < linkBytes := by decide
    exact ⟨by omega, by omega, by omega, by omega, by omega, by omega, Size.dvd_roundUp _ _⟩
  · cases h

/-- The bytes of all slots are found where a machine word holds them. -/
theorem footprint_eq (capacity slotSize available : ℕ) :
    footprint capacity slotSize available =
      if capacity * slotSize < Size.limit then .ok (capacity * slotSize)
      else .error (.capacityExceedsArena (Size.satMul capacity slotSize) available) := by
  unfold footprint Size.mul?
  split_ifs with h
  · rfl
  · rw [Size.satMul_of_le (Nat.le_of_not_lt h)]

theorem footprint_eq_ok {capacity slotSize available n : ℕ}
    (h : footprint capacity slotSize available = .ok n) :
    n = capacity * slotSize ∧ n < Size.limit := by
  rw [footprint_eq] at h
  split_ifs at h with hlt
  cases h
  exact ⟨rfl, hlt⟩

/-- Building in a region that has room for the slots gives a pool that has just been built. -/
theorem built_build {shape : Shape} {capacity asked slotSize : ℕ} {region : Region} {m : Memory}
    (hs : slotBytes shape capacity asked = .ok slotSize)
    (hfit : capacity * slotSize ≤ region.length) :
    Built shape (build shape region capacity slotSize m).1 m
      (build shape region capacity slotSize m).2 := by
  obtain ⟨h0, hnil, halign, -, hsize, hpos, hdvd⟩ := slotBytes_eq_ok hs
  exact
    { sound := ⟨h0, hnil, hpos, hdvd⟩
      shape_eq := rfl
      align_le := halign
      size_le := hsize
      fits := hfit
      head_eq := rfl
      counters_eq := rfl
      memory_eq := rfl }

/-- A pool built in a region lies there. -/
theorem built_of_inRegion {shape : Shape} {capacity asked : ℕ} {region : Region} {m m' : Memory}
    {p : Pool} (h : Pool.inRegion shape capacity asked region m = .ok (p, m')) :
    Built shape p m m' ∧ p.region = region := by
  unfold Pool.inRegion at h
  obtain ⟨slotSize, hs, h⟩ := bind_eq_ok h
  obtain ⟨required, hr, h⟩ := bind_eq_ok h
  obtain ⟨rfl, -⟩ := footprint_eq_ok hr
  split_ifs at h with hfit
  cases h
  exact ⟨built_build hs (Nat.le_of_not_lt hfit), rfl⟩

/-- A region that an arena gives off is as long as the request in whole cache lines. -/
theorem length_of_reserve {a a' : Arena} {bytes : ℕ} {region : Region}
    (h : a.reserve bytes = (a', some region)) :
    region = ⟨a.base + a.cursor, a.cursor, Size.roundUp cacheLine bytes⟩ ∧
      a' = { a with cursor := a.cursor + Size.roundUp cacheLine bytes } ∧
      a.cursor + Size.roundUp cacheLine bytes ≤ a.size := by
  rw [Arena.reserve_eq] at h
  split at h
  · simp at h
  · rename_i length hlen
    obtain ⟨rfl, -⟩ := Size.roundUp?_eq_some_iff.1 hlen
    split_ifs at h with hfit
    · obtain ⟨rfl, hr⟩ := Prod.mk.inj h
      cases hr
      exact ⟨rfl, rfl, hfit.2⟩
    · simp at h

/-- A pool built on an arena lies in a region that the arena gave off for it. -/
theorem built_of_withSlotSize {shape : Shape} {capacity asked : ℕ} {a a' : Arena} {p : Pool}
    (h : Pool.withSlotSize shape capacity asked a = .ok (p, a')) :
    Built shape p a.memory a'.memory ∧
      ∃ a₁, a.reserve (p.capacity * p.slotSize) = (a₁, some p.region) ∧
        a' = { a₁ with memory := a'.memory } := by
  unfold Pool.withSlotSize at h
  obtain ⟨slotSize, hs, h⟩ := bind_eq_ok h
  obtain ⟨required, hr, h⟩ := bind_eq_ok h
  obtain ⟨rfl, -⟩ := footprint_eq_ok hr
  split at h
  · cases h
  · rename_i a₁ region hres
    obtain ⟨hregion, ha₁, -⟩ := length_of_reserve hres
    cases h
    have hfit : capacity * slotSize ≤ region.length := by
      rw [hregion]
      exact Size.le_roundUp (by decide) _
    have hmem : a.memory = a₁.memory := by rw [ha₁]
    refine ⟨?_, a₁, hres, rfl⟩
    rw [hmem]
    exact built_build hs hfit

theorem capacity_of_withSlotSize {shape : Shape} {capacity asked : ℕ} {a a' : Arena} {p : Pool}
    (h : Pool.withSlotSize shape capacity asked a = .ok (p, a')) : p.capacity = capacity := by
  unfold Pool.withSlotSize at h
  obtain ⟨slotSize, -, h⟩ := bind_eq_ok h
  obtain ⟨required, -, h⟩ := bind_eq_ok h
  split at h
  · cases h
  · cases h
    rfl

/-- A pool is built on an arena that has room for all its slots. -/
theorem withSlotSize_eq_ok {shape : Shape} {capacity asked slotSize : ℕ} {a : Arena}
    (hs : slotBytes shape capacity asked = .ok slotSize) (hlt : capacity * slotSize < Size.limit)
    (hfit : a.cursor + capacity * slotSize ≤ a.size) :
    ∃ p a', Pool.withSlotSize shape capacity asked a = .ok (p, a') ∧ p.capacity = capacity ∧
      p.slotSize = slotSize := by
  obtain ⟨h0, -, -, -, -, hpos, hdvd⟩ := slotBytes_eq_ok hs
  have hround : Size.roundUp? cacheLine (capacity * slotSize) = some (capacity * slotSize) :=
    Size.roundUp?_eq_some_iff.2
      ⟨Size.roundUp_eq_self (by decide) (Nat.dvd_mul_left_of_dvd hdvd capacity), hlt⟩
  have hreq : footprint capacity slotSize a.remaining = .ok (capacity * slotSize) := by
    rw [footprint_eq, if_pos hlt]
  have hne : capacity * slotSize ≠ 0 := Nat.mul_ne_zero (by omega) (by omega)
  have hres : a.reserve (capacity * slotSize) =
      ({ a with cursor := a.cursor + capacity * slotSize },
        some ⟨a.base + a.cursor, a.cursor, capacity * slotSize⟩) := by
    rw [Arena.reserve_eq, hround]
    exact if_pos ⟨hne, hfit⟩
  let b := build shape ⟨a.base + a.cursor, a.cursor, capacity * slotSize⟩ capacity slotSize a.memory
  refine ⟨b.1, { a with cursor := a.cursor + capacity * slotSize, memory := b.2 }, ?_, rfl, rfl⟩
  simp [Pool.withSlotSize, hs, hreq, hres, bind, Except.bind, b]

/-- A pool is not built on an arena that has too little room left for all its slots. The error names
the bytes of all slots, or the largest size where no machine word holds them. -/
theorem withSlotSize_eq_error {shape : Shape} {capacity asked slotSize : ℕ} {a : Arena}
    (hs : slotBytes shape capacity asked = .ok slotSize)
    (hfull : a.remaining < capacity * slotSize) :
    Pool.withSlotSize shape capacity asked a =
      .error (.capacityExceedsArena (Size.satMul capacity slotSize) a.remaining) := by
  by_cases hlt : capacity * slotSize < Size.limit
  · have hreq : footprint capacity slotSize a.remaining = .ok (capacity * slotSize) := by
      rw [footprint_eq, if_pos hlt]
    have hround : Size.roundUp? cacheLine (capacity * slotSize) = some (capacity * slotSize) := by
      obtain ⟨-, -, -, -, -, -, hdvd⟩ := slotBytes_eq_ok hs
      exact Size.roundUp?_eq_some_iff.2
        ⟨Size.roundUp_eq_self (by decide) (Nat.dvd_mul_left_of_dvd hdvd capacity), hlt⟩
    have hres : a.reserve (capacity * slotSize) = (a, none) := by
      rw [Arena.reserve_eq, hround]
      refine if_neg fun h => ?_
      have hle := h.2
      simp only [Arena.remaining, Arena.reserved] at hfull
      omega
    simp [Pool.withSlotSize, hs, hreq, hres, Size.satMul_of_lt hlt, bind, Except.bind]
  · have hreq : footprint capacity slotSize a.remaining =
        .error (.capacityExceedsArena (Size.satMul capacity slotSize) a.remaining) := by
      rw [footprint_eq, if_neg hlt]
    simp [Pool.withSlotSize, hs, hreq, bind, Except.bind]

theorem New.built {p : Pool} {m : Memory} (h : New p m) : ∃ shape m₀, Built shape p m₀ m := by
  cases h with
  | inRegion h => exact ⟨_, _, (built_of_inRegion h).1⟩
  | onArena h => exact ⟨_, _, (built_of_withSlotSize h).1⟩

namespace Built

variable {shape : Shape} {p : Pool} {m m' : Memory}

/-- The free list of a new pool holds all slots in ascending order. -/
theorem linked (h : Built shape p m m') :
    Linked p.slots m' p.head.index (numbers p.capacity) := by
  rw [h.head_eq, h.memory_eq]
  exact linked_linkSlots h.sound m

/-- Building a pool changes no byte outside its slots. -/
theorem load_eq (h : Built shape p m m') {a : ℕ}
    (ha : a < p.region.offset ∨ p.region.offset + p.capacity * p.slotSize ≤ a) :
    m'.load a = m.load a := by
  rw [h.memory_eq]
  exact load_linkSlots h.sound ha

end Built

/-- A pool of two slots at the start of the memory. -/
def twoSlots : Pool where
  shape := ⟨8, 8⟩
  region := ⟨0, 0, 128⟩
  capacity := 2
  slotSize := 64
  head := ⟨0, 0⟩
  counters := {}

theorem new_twoSlots : New twoSlots (linkSlots twoSlots.slots .zero) := by
  have h : Pool.inRegion ⟨8, 8⟩ 2 8 ⟨0, 0, 128⟩ .zero =
    .ok (twoSlots, linkSlots twoSlots.slots .zero) := rfl
  exact .inRegion h

end Slab.Pool
