import Slab.Proofs.Pool.Addresses

/-!
# No number of a pool leaves its word

Nothing checks the products, sums and differences that a pool computes. They stay in range because
of what was checked when the pool was built, and because a call only ever reaches for slots of the
pool: those of the heads that it was shown, and the one in its hands.

* `Measured`: what is promised of the numbers of a pool, with `Roomy.measured`;
* `Call.reaches?`: the slot whose place a call computes next;
* `Crew.Shown`: every head that a call relies on names a slot or the end of the free list;
* `Crew.InBounds`: what is promised of threads that share a pool, with `Inv.inBounds_of_timely`.

A call that comes too late may be shown an old head and read a link that is none. It does not reach
for what it read.
-/

namespace Slab.Pool

/-! ### Pools -/

/-- What is promised of the numbers that a pool computes. -/
structure Measured (p : Pool) : Prop where
  /-- The bytes of all slots are bytes of the region. -/
  footprint : p.footprintBytes = p.capacity * p.slotSize ∧ p.footprintBytes ≤ p.region.length ∧
    p.region.length < Size.limit
  /-- Every slot ends in the region, and the region ends in the address space. -/
  slot : ∀ i : UInt32, i.toNat < p.capacity →
    i.toNat * p.slotSize + p.slotSize ≤ p.region.length ∧
      p.addressOf i + p.slotSize ≤ p.region.address + p.region.length ∧
      p.region.address + p.region.length ≤ Size.limit
  /-- No slot has the number that marks the end, and every number is that of its slot. -/
  number : ∀ i < p.capacity, (UInt32.ofNat i).toNat = i ∧ UInt32.ofNat i ≠ nil
  /-- The number after a slot does not go round. -/
  next : ∀ i < p.capacity, i + 1 < UInt32.size ∧
    (i + 1 ≠ p.capacity → (nextOf p.capacity i).toNat = i + 1 ∧ nextOf p.capacity i ≠ nil)
  /-- A slot is found at its address, under its number. -/
  found : ∀ i : UInt32, i.toNat < p.capacity →
    p.contains (p.addressOf i) = true ∧ p.indexOf (p.addressOf i) = i

variable {p : Pool}

theorem Roomy.contains_addressOf (h : Roomy p) {i : UInt32} (hi : i.toNat < p.capacity) :
    p.contains (p.addressOf i) = true :=
  (h.contains_iff (h.address_lt hi)).2 ⟨i.toNat, hi, rfl⟩

/-- **The numbers of a pool that lies in the address space stay in range.** -/
theorem Roomy.measured (h : Roomy p) (hlength : p.region.length < Size.limit) : Measured p where
  footprint := ⟨rfl, h.fits, hlength⟩
  slot i hi := by
    have hend := h.address_add_le hi
    refine ⟨?_, hend, h.end_le⟩
    omega
  number i hi := by
    have hnumber := toNat_ofNat_of_le h.sound.capacity_le hi
    exact ⟨hnumber, ne_nil_of_lt h.sound.capacity_le (hnumber.symm ▸ hi)⟩
  next i hi := by
    have hle : p.capacity ≤ nil.toNat := h.sound.capacity_le
    have hsize : UInt32.size = nil.toNat + 1 := rfl
    refine ⟨by omega, fun hne => ?_⟩
    have hnext : (nextOf p.capacity i).toNat = i + 1 := by
      rw [nextOf, if_neg hne]
      exact toNat_ofNat_of_le hle (by omega)
    exact ⟨hnext, ne_nil_of_lt hle (hnext.symm ▸ (by omega : i + 1 < p.capacity))⟩
  found i hi := ⟨h.contains_addressOf hi, indexOf_addressOf h.sound.slotSize_pos i⟩

/-! ### Threads -/

namespace Call

/-- The slot whose place a call computes next: to read or store its link, or to hand it over. -/
def reaches? : Call → Option UInt32
  | acquireSeen h => if h.index = nil then none else some h.index
  | acquireWon i | release i | releaseSeen i _ => some i
  | _ => none

/-- A call reaches for the slot of the head that it was shown, or for the one in its hands. -/
theorem of_reaches? {c : Call} {i : UInt32} (h : c.reaches? = some i) :
    (∃ hd, c.shown? = some hd ∧ hd.index = i ∧ i ≠ nil) ∨ c.owned? = some i := by
  cases c with
  | acquireSeen hd =>
    by_cases hn : hd.index = nil
    · rw [reaches?, if_pos hn] at h
      cases h
    · rw [reaches?, if_neg hn] at h
      cases h
      exact Or.inl ⟨hd, rfl, rfl, hn⟩
  | acquireWon _ | release _ | releaseSeen _ _ => exact Or.inr h
  | acquire | acquireLinked _ _ | acquireLost _ | acquired _ | exhausted | releaseLinked _ _
  | releaseLost _ _ | releaseWon _ | released => cases h

/-- A step changes bytes only in the slot that it reaches for. -/
theorem place_of_step {g : Slots} (hg : g.Sound) {spurious : Bool} {s : Shared} {c : Call} {a : ℕ}
    (h : (c.step g spurious s).1.memory.load a ≠ s.memory.load a) :
    ∃ i, c.reaches? = some i ∧ g.place i ≤ a ∧ a < g.place i + g.slotSize := by
  have ho := step_outcome g spurious s c
  generalize (c.step g spurious s).1 = s' at ho h
  generalize (c.step g spurious s).2 = c' at ho
  cases ho with
  | @link i hd =>
    dsimp only at h
    refine ⟨i, rfl, ?_⟩
    by_contra hout
    exact h (load_store32_of_other_slot hg s.memory i hd.index a (by omega))
  | quiet _ _ _ _ | hand | pop | push => exact absurd rfl h

end Call

namespace Crew

variable {ι : Type} {g : Slots} {c : Crew ι} {free : List UInt32} {e : Event ι}

/-- Every head that a call relies on names a slot or the end of the free list. -/
def Shown (g : Slots) (c : Crew ι) : Prop :=
  ∀ t hd, (c.call t).shown? = some hd → hd.index ≠ nil → hd.index.toNat < g.capacity

/-- What is promised of every state of threads that share a pool. -/
structure InBounds (g : Slots) (c : Crew ι) : Prop where
  free : ∀ i ∈ c.shared.freeSlots g, i.toNat < g.capacity
  held : ∀ i ∈ c.held, i.toNat < g.capacity
  /-- Whatever place is computed next is that of a slot, -/
  reached : ∀ t i, (c.call t).reaches? = some i → i.toNat < g.capacity
  /-- and no other byte changes. -/
  changed : ∀ t spurious a,
    ((c.call t).step g spurious c.shared).1.memory.load a ≠ c.shared.memory.load a →
      g.base ≤ a ∧ a < g.base + g.capacity * g.slotSize

theorem shown_start (g : Slots) (s : Shared) : Shown g (start s : Crew ι) := by
  intro t hd hs
  cases hs

variable [DecidableEq ι]

/-- Whatever happens, a head that a call relies on afterwards is the present one or was relied on
before. -/
theorem shown?_call_step {t : ι} {hd : Head} (hs : ((c.step g e).call t).shown? = some hd) :
    c.shared.head = hd ∨ (c.call t).shown? = some hd := by
  have begun : ∀ u x, x.shown? = none → (Function.update c.call u x t).shown? = some hd →
      (c.call t).shown? = some hd := by
    intro u x hx hs
    rcases eq_or_ne t u with rfl | hne
    · rw [Function.update_self, hx] at hs
      cases hs
    · rwa [Function.update_of_ne hne] at hs
  cases e with
  | go u spurious =>
    rcases eq_or_ne t u with rfl | hne
    · rw [step, go, call_advance_self] at hs
      have hlook := Call.shown?_step hs
      split at hlook
      · exact Or.inl hlook
      · exact Or.inr hlook
    · rw [step, go, call_advance_of_ne c hne] at hs
      exact Or.inr hs
  | take u | give u slot =>
    rw [step] at hs
    split at hs
    · exact Or.inr (begun u _ rfl hs)
    · exact Or.inr hs
  | write _ _ _ | elsewhere _ _ =>
    rw [step] at hs
    split at hs <;> exact Or.inr hs

theorem Shown.step (h : Shown g c) (hinv : Inv g c free) (hg : g.Sound) (e : Event ι) :
    Shown g (c.step g e) := by
  intro t hd hs hn
  rcases shown?_call_step hs with rfl | hbefore
  · exact hinv.lt_capacity hg (List.mem_append_left _ (hinv.head_mem hn))
  · exact h t hd hbefore hn

omit [DecidableEq ι] in
theorem Inv.inBounds (h : Inv g c free) (hg : g.Sound) (hshown : Shown g c) : InBounds g c := by
  have hout : ∀ i ∈ c.out, i.toNat < g.capacity := fun i hi =>
    h.lt_capacity hg (List.mem_append_right _ hi)
  have hreached : ∀ t i, (c.call t).reaches? = some i → i.toNat < g.capacity := by
    intro t i hi
    rcases Call.of_reaches? hi with ⟨hd, hs, rfl, hn⟩ | hown
    · exact hshown t hd hs hn
    · exact hout i (h.mem_out_of_owned hown)
  refine ⟨fun i hi => ?_, fun i hi => hout i (h.owners.mem_of_held hi), hreached, ?_⟩
  · rw [h.freeSlots_eq] at hi
    exact h.lt_capacity hg (List.mem_append_left _ hi)
  · intro t spurious a ha
    obtain ⟨i, hi, hle, hlt⟩ := Call.place_of_step hg ha
    have hend := Slots.place_add_le_end (hreached t i hi)
    have hbase := g.base_le_place i
    omega

/-- **Only slots of the pool are reached for**, wherever a timely run has led to. -/
theorem Inv.inBounds_of_timely (h : Inv g c free) (hg : g.Sound) (hshown : Shown g c)
    {es : List (Event ι)} (ht : Timely g c es) : InBounds g (Crew.run g c es) := by
  have hrun := ht.invariant (motive := fun c => (∃ free, Inv g c free) ∧ Shown g c) ?_
    ⟨⟨free, h⟩, hshown⟩
  · obtain ⟨⟨free', hinv⟩, hshown'⟩ := hrun
    exact hinv.inBounds hg hshown'
  · rintro c e ⟨⟨free, hinv⟩, hshown⟩ hp
    exact ⟨hinv.step hg hp, hshown.step hinv hg e⟩

end Crew
end Slab.Pool
