import Slab.Proofs.Pool.Conservation

/-!
# Addresses of slots

The slots of a pool are found by their addresses, and no other address is taken for one, although
the distance of an address from the first slot goes round at the largest address.

* `Roomy`: a pool whose slots end before the last address;
* `distance_eq`: the distance of an address on either side of the first slot;
* `Addressed`: what is promised of the addresses of a pool, with `Roomy.addressed`;
* `Remote`, `Separate`, `Roomy.separate`: no address is contained in two pools that lie apart;
* `releaseAt_of_acquireAt`, `Crew.Inv.addressOf_out`: a slot that was taken, by one thread alone or
  by many, is given back under its number.
-/

namespace Slab.Pool

/-- The slots of the pool lie in the address space. -/
structure Roomy (p : Pool) : Prop where
  sound : p.slots.Sound
  fits : p.capacity * p.slotSize ≤ p.region.length
  end_le : p.region.address + p.region.length ≤ Size.limit

/-- What is promised of the addresses of a pool. -/
structure Addressed (p : Pool) : Prop where
  /-- Just the addresses of slots are contained. -/
  contains_iff : ∀ address < Size.limit, (p.contains address = true ↔
    ∃ i < p.capacity, address = p.region.address + i * p.slotSize)
  /-- The slot at an address is found. -/
  slotIndex_iff : ∀ address < Size.limit, ∀ i, (p.slotIndex address = some i ↔
    i < p.capacity ∧ address = p.region.address + i * p.slotSize)
  slotIndex_none : ∀ address < Size.limit,
    (p.slotIndex address = none ↔ p.contains address = false)
  /-- The address of a slot is an address, and the slot is found there. -/
  slotIndex_addressOf : ∀ i < p.capacity, p.addressOf (UInt32.ofNat i) < Size.limit ∧
    p.slotIndex (p.addressOf (UInt32.ofNat i)) = some i
  /-- The number of a slot is computed from its address. -/
  indexOf_addressOf : ∀ i : UInt32, i.toNat < p.capacity → p.indexOf (p.addressOf i) = i

/-- The regions of the pools have no address in common. -/
def Remote (p q : Pool) : Prop :=
  p.region.address + p.region.length ≤ q.region.address ∨
    q.region.address + q.region.length ≤ p.region.address

/-- No address is contained in both pools. -/
def Separate (p q : Pool) : Prop :=
  ∀ address < Size.limit, ¬ (p.contains address = true ∧ q.contains address = true)

variable {p q : Pool} {address i : ℕ}

theorem indexOf_addressOf (hpos : 0 < p.slotSize) (i : UInt32) :
    p.indexOf (p.addressOf i) = i := by
  rw [indexOf, addressOf, Nat.add_sub_cancel_left, Nat.mul_div_cancel _ hpos, UInt32.ofNat_toNat]

namespace Roomy

/-- The address of a slot lies in front of the end of its region. -/
theorem address_add_le (h : Roomy p) (hi : i < p.capacity) :
    p.region.address + i * p.slotSize + p.slotSize ≤ p.region.address + p.region.length := by
  have hle : (i + 1) * p.slotSize ≤ p.capacity * p.slotSize := Nat.mul_le_mul_right _ hi
  have hfits := h.fits
  rw [Nat.succ_mul] at hle
  omega

theorem address_lt (h : Roomy p) (hi : i < p.capacity) :
    p.region.address + i * p.slotSize < Size.limit := by
  have hend := h.address_add_le hi
  have hpos : 0 < p.slotSize := h.sound.slotSize_pos
  have hle := h.end_le
  omega

theorem base_lt (h : Roomy p) : p.region.address < Size.limit := by
  have hlt := h.address_lt h.sound.capacity_pos
  rwa [Nat.zero_mul] at hlt

/-- The distance goes round for the addresses in front of the first slot. -/
theorem distance_eq (h : Roomy p) (ha : address < Size.limit) :
    p.distance address = if p.region.address ≤ address then address - p.region.address
      else address + (Size.limit - p.region.address) := by
  have hbase := h.base_lt
  rw [distance, Nat.mod_eq_of_lt hbase]
  split_ifs with hle
  · have hsplit : address + (Size.limit - p.region.address) =
        address - p.region.address + Size.limit := by omega
    rw [hsplit, Nat.add_mod_right, Nat.mod_eq_of_lt (by omega)]
  · exact Nat.mod_eq_of_lt (by omega)

theorem contains_iff (h : Roomy p) (ha : address < Size.limit) : p.contains address = true ↔
    ∃ i < p.capacity, address = p.region.address + i * p.slotSize := by
  have hpos : 0 < p.slotSize := h.sound.slotSize_pos
  rw [contains, Bool.and_eq_true, decide_eq_true_iff, beq_iff_eq, h.distance_eq ha]
  constructor
  · rintro ⟨hlt, hmod⟩
    split_ifs at hlt hmod with hle
    · refine ⟨(address - p.region.address) / p.slotSize, ?_, ?_⟩
      · rw [Nat.div_lt_iff_lt_mul hpos]
        exact hlt
      · rw [Nat.div_mul_cancel (Nat.dvd_of_mod_eq_zero hmod)]
        omega
    · -- an address in front of the pool is at least as far away as the end of the address space
      have hfits := h.fits
      have hend := h.end_le
      omega
  · rintro ⟨i, hi, rfl⟩
    rw [if_pos (Nat.le_add_right _ _), Nat.add_sub_cancel_left]
    exact ⟨Nat.mul_lt_mul_of_pos_right hi hpos, Nat.mul_mod_left _ _⟩

/-- The number of a slot is computed from its address without loss. -/
theorem toNat_indexOf (h : Roomy p) (hi : i < p.capacity) :
    (p.indexOf (p.region.address + i * p.slotSize)).toNat = i := by
  have hpos : 0 < p.slotSize := h.sound.slotSize_pos
  rw [indexOf, Nat.add_sub_cancel_left, Nat.mul_div_cancel _ hpos]
  exact toNat_ofNat_of_le h.sound.capacity_le hi

theorem slotIndex_iff (h : Roomy p) (ha : address < Size.limit) : p.slotIndex address = some i ↔
    i < p.capacity ∧ address = p.region.address + i * p.slotSize := by
  rw [slotIndex]
  constructor
  · intro hsome
    split_ifs at hsome with hc
    obtain ⟨j, hj, rfl⟩ := (h.contains_iff ha).1 hc
    rw [h.toNat_indexOf hj] at hsome
    cases hsome
    exact ⟨hj, rfl⟩
  · rintro ⟨hi, rfl⟩
    rw [if_pos ((h.contains_iff ha).2 ⟨i, hi, rfl⟩), h.toNat_indexOf hi]

/-- **The slots of a pool, and nothing else, are found by their addresses.** -/
theorem addressed (h : Roomy p) : Addressed p where
  contains_iff _ ha := h.contains_iff ha
  slotIndex_iff _ ha _ := h.slotIndex_iff ha
  slotIndex_none address _ := by
    rw [slotIndex]
    cases p.contains address <;> simp
  slotIndex_addressOf i hi := by
    have haddress : p.addressOf (UInt32.ofNat i) = p.region.address + i * p.slotSize := by
      rw [addressOf, toNat_ofNat_of_le h.sound.capacity_le hi]
    rw [haddress]
    exact ⟨h.address_lt hi, (h.slotIndex_iff (h.address_lt hi)).2 ⟨hi, rfl⟩⟩
  indexOf_addressOf i _ := indexOf_addressOf h.sound.slotSize_pos i

/-- No address is contained in two pools with remote regions. -/
theorem separate (hp : Roomy p) (hq : Roomy q) (hpq : Remote p q) : Separate p q := by
  rintro address ha ⟨hpc, hqc⟩
  obtain ⟨i, hi, hpi⟩ := (hp.contains_iff ha).1 hpc
  obtain ⟨j, hj, hqj⟩ := (hq.contains_iff ha).1 hqc
  have hpend := hp.address_add_le hi
  have hqend := hq.address_add_le hj
  have hppos : 0 < p.slotSize := hp.sound.slotSize_pos
  have hqpos : 0 < q.slotSize := hq.sound.slotSize_pos
  unfold Remote at hpq
  omega

end Roomy

/-! ### Slots in use -/

/-- A slot that is taken at an address is given back at this address. -/
theorem releaseAt_of_acquireAt (hpos : 0 < p.slotSize) {p' : Pool} {m m' : Memory}
    (h : p.acquireAt m = (p', m', some address)) :
    ∃ slot, p.acquire m = (p', m', some slot) ∧ address = p.addressOf slot ∧
      ∀ q : Pool, q.region = p.region → q.slotSize = p.slotSize →
        ∀ m, q.releaseAt m address = q.release m slot := by
  rw [acquireAt] at h
  cases hacquire : p.acquire m with
  | mk p₁ r =>
    obtain ⟨m₁, slot⟩ := r
    rw [hacquire] at h
    cases slot with
    | none => cases h
    | some slot =>
      cases h
      refine ⟨slot, rfl, rfl, fun q hregion hsize m => ?_⟩
      have hindex : q.indexOf (p.addressOf slot) = p.indexOf (p.addressOf slot) := by
        rw [indexOf, indexOf, hregion, hsize]
      rw [releaseAt, hindex, indexOf_addressOf hpos]

/-- A slot that threads have popped has an address, and its number is computed from it. -/
theorem Crew.Inv.addressOf_out {ι : Type} {c : Crew ι} {free : List UInt32} {slot : UInt32}
    (h : Crew.Inv p.slots c free) (hp : Roomy p) (hslot : slot ∈ c.out) :
    slot.toNat < p.capacity ∧ p.addressOf slot < Size.limit ∧
      p.indexOf (p.addressOf slot) = slot := by
  have hlt : slot.toNat < p.capacity := h.lt_capacity hp.sound (List.mem_append_right _ hslot)
  exact ⟨hlt, hp.address_lt hlt, indexOf_addressOf hp.sound.slotSize_pos slot⟩

end Slab.Pool
