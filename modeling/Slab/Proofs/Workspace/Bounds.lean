import Slab.Proofs.Arena.Carving
import Slab.Proofs.Pool.Bounds
import Slab.Proofs.Workspace.Addresses
import Slab.Proofs.Workspace.Requests

/-!
# No number in a workspace leaves its word

Where the mappings of all arenas lie in the address space, nothing that arenas, regions and pools
compute leaves the words of the machine, although only the constructors, the reservations and the
splits check anything.

* `Region.InBounds`: what is promised of a region of an arena, with `Region.Within.inBounds`;
* `Carving.InBounds`: what is promised of threads that carve up an arena;
* `Workspace.InBounds`, `Workspace.inBounds_run`: **what is promised of every workspace**.
-/

namespace Slab

/-- What is promised of the numbers that a region computes. -/
structure Region.InBounds (r : Region) (a : Arena) : Prop where
  /-- The region ends in the arena, -/
  end_le : r.offset + r.length ≤ a.size
  address_le : r.address + r.length ≤ a.base + a.size
  /-- and so do both parts of it, which share out its bytes between them. -/
  split : ∀ mid head tail, r.split mid = some (head, tail) →
    head.length ≤ r.length ∧ tail.length = r.length - head.length ∧
      tail.offset = r.offset + head.length ∧ tail.offset + tail.length ≤ a.size ∧
      tail.address = r.address + head.length ∧ tail.address + tail.length ≤ a.base + a.size

theorem Region.Within.inBounds {r : Region} {a : Arena} (h : r.Within a)
    (ha : a.cursor ≤ a.size) : r.InBounds a where
  end_le := Nat.le_trans h.end_le ha
  address_le := by
    have hend := h.end_le
    have haddress := h.address_eq
    omega
  split mid head tail hsplit := by
    obtain ⟨-, hw, -, -⟩ := h.split hsplit
    have hend := hw.end_le
    have haddress := hw.address_eq
    obtain ⟨k, -, hle, rfl, rfl⟩ := Region.split_eq_some hsplit
    exact ⟨hle, rfl, rfl, Nat.le_trans hend ha, rfl, by omega⟩

/-! ### Threads that carve up an arena -/

namespace Carving

variable {ι : Type}

/-- What is promised of every state of threads that carve up an arena. -/
structure InBounds (c : Carving ι) : Prop where
  bounded : c.arena.Bounded
  remaining : c.arena.reserved + c.arena.remaining = c.arena.size
  regions : ∀ r ∈ c.live, r.InBounds c.arena

theorem Inv.inBounds {a : Arena} {c : Carving ι} (h : Inv a c) (ha : a.size < Size.limit) :
    InBounds c where
  bounded := ⟨h.cursor_le, h.size_eq ▸ ha⟩
  remaining := Nat.add_sub_of_le h.cursor_le
  regions r hr := by
    have hwithin : r.Within c.arena :=
      ⟨(h.lines r hr).1, h.base_eq ▸ h.address_eq r hr, (h.tiles.bounds hr).2⟩
    exact hwithin.inBounds h.cursor_le

end Carving

/-! ### Workspaces -/

namespace Workspace

/-- What is promised of the numbers in a workspace. -/
structure InBounds (w : Workspace) : Prop where
  /-- No more has been carved off an arena than it has, and a machine word holds its size. -/
  arenas : ∀ a ∈ w.arenas, a.Bounded ∧ a.reserved + a.remaining = a.size
  /-- Regions lie in their arenas, with all parts that they may be split into, -/
  regions : ∀ name h, w.regions.find? name = some h →
    ∃ a, w.arenas[h.arena]? = some a ∧ h.region.InBounds a
  /-- and so do pools. -/
  pools : ∀ name t, w.pools.find? name = some t →
    (∃ a, w.arenas[t.arena]? = some a ∧ t.site.pool.region.InBounds a) ∧ t.site.pool.Measured
  /-- Whatever is on a free list or held is a slot. -/
  free : ∀ name t a, w.pools.find? name = some t → w.arenas[t.arena]? = some a →
    ∀ i ∈ (t.site.pool.shared a.memory).freeSlots t.site.pool.slots, i.toNat < t.site.pool.capacity
  held : ∀ name t k lease, w.pools.find? name = some t → t.site.leases.find? k = some lease →
    k < t.site.pool.capacity ∧
      t.site.pool.contains (t.site.pool.addressOf (UInt32.ofNat k)) = true
  /-- So it is when any number of threads use a pool from the time on when it was built. -/
  shared : ∀ name t, w.pools.find? name = some t → ∀ (ι : Type) [DecidableEq ι] (m : Memory)
    (es : List (Pool.Crew.Event ι)),
    let start := Pool.Crew.start
      (t.site.pool.original.shared (Pool.linkSlots t.site.pool.slots m))
    Pool.Crew.Timely t.site.pool.slots start es →
      let c := Pool.Crew.run t.site.pool.slots start es
      c.InBounds t.site.pool.slots ∧
        ∀ i ∈ c.held, t.site.pool.contains (t.site.pool.addressOf i) = true

variable {host : Host} {w : Workspace} {r : Record}

theorem Inv.inBounds (h : Inv w r) (hsizes : w.Bounded)
    (hspace : ∀ a ∈ w.arenas, a.base + a.size ≤ Size.limit) : InBounds w where
  arenas a ha := ⟨hsizes.arenas a ha, Nat.add_sub_of_le (hsizes.arenas a ha).cursor_le⟩
  regions name g hg := by
    obtain ⟨a, ha, hw⟩ := h.tiled.within (.region name) g hg
    exact ⟨a, ha, hw.inBounds (hsizes.arena ha).cursor_le⟩
  pools name t ht := by
    obtain ⟨a, ha, hw, -, -⟩ := h.pool ht
    have hregion := hw.inBounds (hsizes.arena ha).cursor_le
    have hlength : t.site.pool.region.length < Size.limit :=
      Nat.lt_of_le_of_lt (Nat.le_of_add_left_le hregion.end_le) (hsizes.arena ha).size_lt
    exact ⟨⟨a, ha, hregion⟩, (h.roomy hspace ht).measured hlength⟩
  free name t a ht ha i hi := by
    obtain ⟨l, hl, -⟩ := (h.kept name t a ht ha).mirrors
    rw [hl.freeSlots_eq] at hi
    exact hl.sound.lt_of_free hi
  held name t k lease ht hk := by
    have hroomy := h.roomy hspace ht
    have hlt := ((h.addressing hspace).held name t k lease ht hk).1
    refine ⟨hlt, hroomy.contains_addressOf ?_⟩
    rwa [Pool.toNat_ofNat_of_le hroomy.sound.capacity_le hlt]
  shared name t ht ι _ m es := by
    intro start htimely c
    have hroomy := h.roomy hspace ht
    have hstart := Pool.Crew.inv_original (ι := ι) hroomy.sound m
    have hbounds : c.InBounds t.site.pool.slots :=
      hstart.inBounds_of_timely hroomy.sound (Pool.Crew.shown_start _ _) htimely
    exact ⟨hbounds, fun i hi => hroomy.contains_addressOf (hbounds.held i hi)⟩

/-- **No number leaves its word**: whatever operations are asked of a workspace whose mappings lie
in the address space, and however many threads carve up an arena or share a pool. -/
theorem inBounds_run (hhost : host.PageAligned) (ops : List Op)
    (hspace : ∀ a ∈ (run host {} ops).1.arenas, a.base + a.size ≤ Size.limit) :
    InBounds (run host {} ops).1 ∧
      ∀ o a, Arena.build host o = .ok a →
        ∀ (ι : Type) [DecidableEq ι] (es : List (Carving.Event ι)),
          (Carving.run (Carving.start a) es).InBounds := by
  refine ⟨(inv_run hhost inv_empty ops).inBounds (bounded_run .empty ops) hspace, ?_⟩
  intro o a ha ι _ es
  exact (Carving.inv_run (Carving.inv_start ha) es).inBounds (Arena.size_lt_of_build ha)

theorem inBounds_neighbours :
    Host.reference.PageAligned ∧
      (∀ a ∈ (run Host.reference {} neighbours).1.arenas, a.base + a.size ≤ Size.limit) ∧
      ((run Host.reference {} neighbours).1.regions.find? "t").map (·.region.length) = some 128 ∧
      ((run Host.reference {} neighbours).1.pools.find? "p").map (·.site.pool.footprintBytes) =
        some 128 ∧
      InBounds (run Host.reference {} neighbours).1 := by
  have hspace : ∀ a ∈ (run Host.reference {} neighbours).1.arenas,
      a.base + a.size ≤ Size.limit := by
    decide +kernel
  exact ⟨pageAligned_reference, hspace, by decide +kernel, by decide +kernel,
    (inBounds_run pageAligned_reference neighbours hspace).1⟩

end Workspace
end Slab
