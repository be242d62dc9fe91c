import Mathlib.Order.Bounds.Basic
import Slab.Proofs.Pool.Construction
import Slab.Workspace.Basic

/-!
# Which pools get built

A pool is built if it can be laid out and if its slots fit into what is left of the arena, or into
the region that it is given. Otherwise the first fault that is found is reported, and the arena
stays as it was, so that a smaller pool can still be built.

* `Suits`: the numbers of bytes that a slot may have;
* `Misfit`, `Refused`: why a pool cannot be laid out, and why it is not built, with the error;
* `inPlace`: the construction with the arena that it leaves behind in any case;
* `Decided`, `DecidedWithin`: what is promised of a construction on an arena and in a region;
* `decided`, `decidedWithin`: **they hold of every construction**.
-/

namespace Slab

/-- The bytes that have been carved off are bytes of the arena, which a machine word can count. -/
structure Arena.Bounded (a : Arena) : Prop where
  cursor_le : a.cursor ≤ a.size
  size_lt : a.size < Size.limit

namespace Pool

variable {shape : Shape} {capacity asked available n : ℕ} {e : PoolError}

/-! ### The layout -/

/-- A slot may have so many bytes: whole cache lines that have room for what is asked for, for an
element and for a link. -/
structure Suits (shape : Shape) (asked n : ℕ) : Prop where
  line_dvd : cacheLine ∣ n
  asked_le : asked ≤ n
  size_le : shape.size ≤ n
  link_le : linkBytes ≤ n

/-- There is a least number of bytes that a slot may have. -/
theorem isLeast_roundUp (shape : Shape) (asked : ℕ) :
    IsLeast {n | Suits shape asked n}
      (Size.roundUp cacheLine (max (max asked shape.size) linkBytes)) := by
  have hle := Size.le_roundUp (show 0 < cacheLine by decide)
    (max (max asked shape.size) linkBytes)
  constructor
  · exact ⟨Size.dvd_roundUp _ _, by omega, by omega, by omega⟩
  · intro n hn
    have := hn.asked_le
    have := hn.size_le
    have := hn.link_le
    exact Size.roundUp_le hn.line_dvd (by omega)

/-- Why a pool cannot be laid out. Of several faults the first one counts. -/
inductive Misfit (shape : Shape) (capacity asked : ℕ) : PoolError → Prop
  | zeroCapacity (h : capacity = 0) : Misfit shape capacity asked .zeroCapacity
  | tooMany (h : UInt32.size ≤ capacity) : Misfit shape capacity asked (.capacityTooLarge capacity)
  | alignment (h0 : 0 < capacity) (h1 : capacity < UInt32.size) (h : 64 < shape.align) :
      Misfit shape capacity asked (.unsupportedAlignment shape.align)
  /-- No machine word holds the bytes of a slot. -/
  | tooWide (h0 : 0 < capacity) (h1 : capacity < UInt32.size) (h2 : shape.align ≤ 64)
      (h : ∀ n, Suits shape asked n → Size.limit ≤ n) :
      Misfit shape capacity asked (.capacityTooLarge capacity)

/-- The checks of the layout, with the least number of bytes that a slot may have. -/
theorem slotBytes_eq (shape : Shape) (capacity asked : ℕ) :
    ∃ n, IsLeast {n | Suits shape asked n} n ∧
      slotBytes shape capacity asked =
        if capacity = 0 then .error .zeroCapacity
        else if UInt32.size ≤ capacity then .error (.capacityTooLarge capacity)
        else if 64 < shape.align then .error (.unsupportedAlignment shape.align)
        else if Size.limit ≤ n then .error (.capacityTooLarge capacity)
        else .ok n := by
  refine ⟨_, isLeast_roundUp shape asked, ?_⟩
  have hsize : nil.toNat < capacity ↔ UInt32.size ≤ capacity := by
    rw [nil_toNat]
    exact Nat.lt_iff_add_one_le
  unfold slotBytes Size.roundUp? cacheLine
  simp only [hsize]
  split_ifs <;> first | rfl | omega

theorem slotBytes_eq_error_iff :
    slotBytes shape capacity asked = .error e ↔ Misfit shape capacity asked e := by
  obtain ⟨n, hn, heq⟩ := slotBytes_eq shape capacity asked
  rw [heq]
  constructor
  · intro h
    split_ifs at h with h0 h1 h2 h3 <;> cases h
    · exact .zeroCapacity h0
    · exact .tooMany h1
    · exact .alignment (by omega) (by omega) h2
    · exact .tooWide (by omega) (by omega) (by omega) fun m hm => Nat.le_trans h3 (hn.2 hm)
  · intro h
    cases h with
    | zeroCapacity h => rw [if_pos h]
    | tooMany h =>
      have h0 : capacity ≠ 0 := by
        rintro rfl
        exact absurd h (by decide)
      rw [if_neg h0, if_pos h]
    | alignment h0 h1 h => rw [if_neg (by omega), if_neg (by omega), if_pos h]
    | tooWide h0 h1 h2 h =>
      rw [if_neg (by omega), if_neg (by omega), if_neg (by omega), if_pos (h n hn.1)]

/-- A pool that can be laid out has the smallest slots that will do. -/
theorem slotBytes_of_fit (h : ∀ e, ¬ Misfit shape capacity asked e) :
    ∃ n, IsLeast {n | Suits shape asked n} n ∧ slotBytes shape capacity asked = .ok n := by
  obtain ⟨n, hn, heq⟩ := slotBytes_eq shape capacity asked
  refine ⟨n, hn, ?_⟩
  cases hs : slotBytes shape capacity asked with
  | error e => exact absurd (slotBytes_eq_error_iff.1 hs) (h e)
  | ok k =>
    rw [hs] at heq
    split_ifs at heq
    cases heq
    rfl

/-! ### The room -/

/-- Why a pool is not built where so many bytes are available: it cannot be laid out, or its slots
do not fit. -/
inductive Refused (shape : Shape) (capacity asked available : ℕ) : PoolError → Prop
  | misfit {e : PoolError} (h : Misfit shape capacity asked e) :
      Refused shape capacity asked available e
  /-- The error names the bytes of all slots, or the largest size where no machine word holds
  them. -/
  | full {n : ℕ} (hfit : ∀ e, ¬ Misfit shape capacity asked e)
      (hn : IsLeast {n | Suits shape asked n} n) (h : available < capacity * n) :
      Refused shape capacity asked available
        (.capacityExceedsArena (Size.satMul capacity n) available)

/-! ### On an arena -/

/-- The construction on an arena that is changed in place: what a step has done to it stays done
when a later step fails. -/
def inPlace (shape : Shape) (capacity asked : ℕ) (a : Arena) : Arena × Except PoolError Pool :=
  match slotBytes shape capacity asked with
  | .error e => (a, .error e)
  | .ok slotSize =>
    match footprint capacity slotSize a.remaining with
    | .error e => (a, .error e)
    | .ok required =>
      match a.reserve required with
      | (a, none) => (a, .error (.capacityExceedsArena required a.remaining))
      | (a, some region) =>
        let (p, m) := build shape region capacity slotSize a.memory
        ({ a with memory := m }, .ok p)

/-- A refused request leaves the arena as it was. -/
theorem reserve_eq_none {a a' : Arena} {bytes : ℕ} (h : a.reserve bytes = (a', none)) : a' = a := by
  rw [Arena.reserve_eq] at h
  split at h
  · exact (Prod.mk.inj h).1.symm
  · split_ifs at h
    · cases (Prod.mk.inj h).2
    · exact (Prod.mk.inj h).1.symm

/-- **A pool that is not built leaves no trace on the arena.** -/
theorem inPlace_eq (shape : Shape) (capacity asked : ℕ) (a : Arena) :
    inPlace shape capacity asked a =
      match withSlotSize shape capacity asked a with
      | .error e => (a, .error e)
      | .ok (p, a') => (a', .ok p) := by
  unfold inPlace withSlotSize
  cases slotBytes shape capacity asked with
  | error e => rfl
  | ok slotSize =>
    simp only [bind, Except.bind]
    cases footprint capacity slotSize a.remaining with
    | error e => rfl
    | ok required =>
      dsimp only
      rcases hres : a.reserve required with ⟨a', _ | region⟩
      · rw [reserve_eq_none hres]
      · rfl

/-- The pool has the smallest slots that will do and lies in the region, and with its memory `m` no
byte outside its slots has changed. -/
structure Placed (shape : Shape) (capacity asked : ℕ) (region : Region) (m₀ : Memory) (p : Pool)
    (m : Memory) : Prop where
  least : IsLeast {n | Suits shape asked n} p.slotSize
  capacity_eq : p.capacity = capacity
  region_eq : p.region = region
  fits : capacity * p.slotSize ≤ region.length
  load_eq : ∀ x, x < region.offset ∨ region.offset + capacity * p.slotSize ≤ x →
    m.load x = m₀.load x

/-- What a construction on an arena does. -/
structure Decided (shape : Shape) (capacity asked : ℕ) (a : Arena) : Prop where
  /-- The verdict. -/
  verdict : ∀ e, withSlotSize shape capacity asked a = .error e ↔
    Refused shape capacity asked a.remaining e
  /-- A pool that is not built leaves the arena as it was. -/
  nothing : ∀ e, Refused shape capacity asked a.remaining e →
    inPlace shape capacity asked a = (a, .error e)
  /-- Any other pool gets exactly the bytes of its slots, from where the arena was carved up to. -/
  all : (∀ e, ¬ Refused shape capacity asked a.remaining e) → ∃ p m,
    Placed shape capacity asked
      ⟨a.base + a.reserved, a.reserved, capacity * p.slotSize⟩ a.memory p m ∧
    withSlotSize shape capacity asked a =
      .ok (p, { a with cursor := a.reserved + capacity * p.slotSize, memory := m }) ∧
    inPlace shape capacity asked a =
      ({ a with cursor := a.reserved + capacity * p.slotSize, memory := m }, .ok p)

/-- A pool that is not refused is laid out and fits. -/
theorem fits_of_not_refused (h : ∀ e, ¬ Refused shape capacity asked available e) :
    ∃ n, IsLeast {n | Suits shape asked n} n ∧ slotBytes shape capacity asked = .ok n ∧
      capacity * n ≤ available := by
  have hfit : ∀ e, ¬ Misfit shape capacity asked e := fun e he => h e (.misfit he)
  obtain ⟨n, hn, hs⟩ := slotBytes_of_fit hfit
  refine ⟨n, hn, hs, Nat.le_of_not_lt fun hlt => ?_⟩
  exact h _ (.full hfit hn hlt)

/-- The error of a pool that is refused. -/
theorem withSlotSize_of_refused {a : Arena} (h : Refused shape capacity asked a.remaining e) :
    withSlotSize shape capacity asked a = .error e := by
  cases h with
  | misfit hm =>
    unfold withSlotSize
    rw [slotBytes_eq_error_iff.2 hm]
    rfl
  | full hfit hn hlt =>
    obtain ⟨k, hk, hs⟩ := slotBytes_of_fit hfit
    cases hn.unique hk
    exact withSlotSize_eq_error hs hlt

/-- A pool that is not refused gets exactly the bytes of its slots. -/
theorem withSlotSize_of_not_refused {a : Arena} (ha : a.Bounded)
    (h : ∀ e, ¬ Refused shape capacity asked a.remaining e) :
    ∃ p m, Placed shape capacity asked
        ⟨a.base + a.reserved, a.reserved, capacity * p.slotSize⟩ a.memory p m ∧
      withSlotSize shape capacity asked a =
        .ok (p, { a with cursor := a.reserved + capacity * p.slotSize, memory := m }) := by
  obtain ⟨n, hn, hs, hroom⟩ := fits_of_not_refused h
  obtain ⟨hcursor, hsize⟩ := ha
  have hfit : a.cursor + capacity * n ≤ a.size := by
    unfold Arena.remaining Arena.reserved at hroom
    omega
  obtain ⟨p, a', hp, hcapacity, rfl⟩ := withSlotSize_eq_ok hs (by omega) hfit
  obtain ⟨hbuilt, a₁, hres, ha'⟩ := built_of_withSlotSize hp
  obtain ⟨hregion, ha₁, -⟩ := length_of_reserve hres
  -- whole cache lines are not rounded any further
  have hround : Size.roundUp cacheLine (p.capacity * p.slotSize) = capacity * p.slotSize := by
    rw [hcapacity]
    exact Size.roundUp_eq_self (by decide) (Nat.dvd_mul_left_of_dvd hn.1.line_dvd capacity)
  rw [hround] at hregion ha₁
  refine ⟨p, a'.memory, ⟨hn, hcapacity, hregion, Nat.le_refl _, fun x hx => hbuilt.load_eq ?_⟩, ?_⟩
  · rw [hregion, hcapacity]
    exact hx
  · rw [hp, ha', ha₁]
    rfl

/-- **A construction on an arena does all or nothing.** -/
theorem decided (shape : Shape) (capacity asked : ℕ) {a : Arena} (ha : a.Bounded) :
    Decided shape capacity asked a where
  verdict e := by
    refine eq_error_iff (fun e he => withSlotSize_of_refused he) fun h => ?_
    obtain ⟨p, m, -, hp⟩ := withSlotSize_of_not_refused ha h
    exact ⟨_, hp⟩
  nothing e he := by rw [inPlace_eq, withSlotSize_of_refused he]
  all h := by
    obtain ⟨p, m, hplaced, hp⟩ := withSlotSize_of_not_refused ha h
    exact ⟨p, m, hplaced, hp, by rw [inPlace_eq, hp]⟩

/-! ### In a region -/

/-- What a construction in a region does. It does not reach the arena beyond the bytes of the
region. -/
structure DecidedWithin (shape : Shape) (capacity asked : ℕ) (region : Region) (m : Memory) :
    Prop where
  verdict : ∀ e, inRegion shape capacity asked region m = .error e ↔
    Refused shape capacity asked region.length e
  all : (∀ e, ¬ Refused shape capacity asked region.length e) → ∃ p m',
    Placed shape capacity asked region m p m' ∧
    inRegion shape capacity asked region m = .ok (p, m')

variable {region : Region} {m : Memory}

/-- The error of a pool that is refused. -/
theorem inRegion_of_refused (h : Refused shape capacity asked region.length e) :
    inRegion shape capacity asked region m = .error e := by
  unfold inRegion
  cases h with
  | misfit hm =>
    rw [slotBytes_eq_error_iff.2 hm]
    rfl
  | @full n hfit hn hlt =>
    obtain ⟨k, hk, hs⟩ := slotBytes_of_fit hfit
    cases hn.unique hk
    rw [hs]
    simp only [bind, Except.bind, footprint_eq]
    by_cases hword : capacity * n < Size.limit
    · rw [if_pos hword, Size.satMul_of_lt hword]
      exact if_pos hlt
    · rw [if_neg hword]

/-- A pool that is not refused gets its slots from the start of the region. -/
theorem inRegion_of_not_refused (hlen : region.length < Size.limit)
    (h : ∀ e, ¬ Refused shape capacity asked region.length e) :
    ∃ p m', Placed shape capacity asked region m p m' ∧
      inRegion shape capacity asked region m = .ok (p, m') := by
  obtain ⟨n, hn, hs, hroom⟩ := fits_of_not_refused h
  have hword : capacity * n < Size.limit := by omega
  have hp : inRegion shape capacity asked region m = .ok (build shape region capacity n m) := by
    unfold inRegion
    rw [hs]
    simp only [bind, Except.bind, footprint_eq]
    rw [if_pos hword]
    exact if_neg (Nat.not_lt_of_le hroom)
  obtain ⟨hbuilt, -⟩ := built_of_inRegion hp
  exact ⟨_, _, ⟨hn, rfl, rfl, hroom, fun x hx => hbuilt.load_eq hx⟩, hp⟩

/-- **So does a construction in a region.** -/
theorem decidedWithin (shape : Shape) (capacity asked : ℕ) (hlen : region.length < Size.limit)
    (m : Memory) : DecidedWithin shape capacity asked region m where
  verdict e := by
    refine eq_error_iff (fun e he => inRegion_of_refused he) fun h => ?_
    obtain ⟨p, m', -, hp⟩ := inRegion_of_not_refused hlen h
    exact ⟨(p, m'), hp⟩
  all h := inRegion_of_not_refused hlen h

end Pool
end Slab
