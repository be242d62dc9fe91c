import Slab.Proofs.Pool.Addresses
import Slab.Proofs.Workspace.Preservation

/-!
# Addresses in a workspace

Where the mappings of all arenas end before the last address, every pool of a workspace finds its
slots by their addresses, and no address belongs to two pools.

* `Workspace.Inv.roomy`: every pool lies in the address space;
* `Workspace.Addressing`, `Workspace.addressing_run`: **what is promised of the addresses in every
  workspace**.
-/

namespace Slab

/-- The invariant holds when nobody has asked a pool for anything since it was built. -/
theorem Pool.Crew.inv_original {ι : Type} {p : Pool} (h : p.slots.Sound) (m : Memory) :
    Inv p.slots (start (p.original.shared (linkSlots p.slots m)) : Crew ι)
      (numbers p.capacity) :=
  inv_linked (p := p.original) (linked_linkSlots h m) rfl

namespace Workspace

/-- What is promised of the addresses in a workspace. -/
structure Addressing (w : Workspace) : Prop where
  /-- Every pool finds its slots, and nothing else, by their addresses. -/
  pool : ∀ name t, w.pools.find? name = some t → t.site.pool.Addressed
  /-- A slot that is taken has the number that is computed when it is given back. -/
  taken : ∀ name t a, w.pools.find? name = some t → w.arenas[t.arena]? = some a →
    ∀ p m address, t.site.pool.acquireAt a.memory = (p, m, some address) →
      ∃ slot, t.site.pool.acquire a.memory = (p, m, some slot) ∧ slot.toNat < t.site.pool.capacity ∧
        address = t.site.pool.addressOf slot ∧ ∀ m', p.releaseAt m' address = p.release m' slot
  /-- So has a slot that is held, -/
  held : ∀ name t k lease, w.pools.find? name = some t → t.site.leases.find? k = some lease →
    k < t.site.pool.capacity ∧
      ∀ m, t.site.pool.releaseAt m (t.site.pool.addressOf (UInt32.ofNat k)) =
        t.site.pool.release m (UInt32.ofNat k)
  /-- and one that any number of threads have popped from the pool since it was built. -/
  shared : ∀ name t, w.pools.find? name = some t → ∀ (ι : Type) [DecidableEq ι] (m : Memory)
    (es : List (Pool.Crew.Event ι)),
    let start := Pool.Crew.start
      (t.site.pool.original.shared (Pool.linkSlots t.site.pool.slots m))
    Pool.Crew.Timely t.site.pool.slots start es →
      ∀ slot ∈ (Pool.Crew.run t.site.pool.slots start es).out,
        slot.toNat < t.site.pool.capacity ∧ t.site.pool.addressOf slot < Size.limit ∧
          t.site.pool.indexOf (t.site.pool.addressOf slot) = slot
  /-- No address is contained in two pools with remote regions, -/
  apart : ∀ name name' t t', w.pools.find? name = some t → w.pools.find? name' = some t' →
    t.site.pool.Remote t'.site.pool → t.site.pool.Separate t'.site.pool
  /-- nor in two pools on one arena. -/
  neighbours : ∀ name name' t t', w.pools.find? name = some t → w.pools.find? name' = some t' →
    name ≠ name' → t.arena = t'.arena → t.site.pool.Separate t'.site.pool

variable {host : Host} {w : Workspace} {r : Record} {name name' : String} {t t' : Tenant}

/-- Every pool lies in the address space where the mappings do. -/
theorem Inv.roomy (h : Inv w r) (hspace : ∀ a ∈ w.arenas, a.base + a.size ≤ Size.limit)
    (ht : w.pools.find? name = some t) : t.site.pool.Roomy := by
  obtain ⟨a, ha, hw, hs, hkept⟩ := h.pool ht
  obtain ⟨l, hl, -⟩ := hkept.mirrors
  have hmapping := hspace a (List.mem_of_getElem? ha)
  have hend := hw.end_le
  have hcursor := hs.cursor_le
  have haddress := hw.address_eq
  exact ⟨hl.layout, hkept.fits, by omega⟩

/-- The next slot that a pool hands out is one of its slots. -/
theorem Inv.taken (h : Inv w r) (ht : w.pools.find? name = some t) {a : Arena}
    (ha : w.arenas[t.arena]? = some a) {p : Pool} {m : Memory} {slot : UInt32}
    (hacquire : t.site.pool.acquire a.memory = (p, m, some slot)) :
    slot.toNat < t.site.pool.capacity ∧ p.region = t.site.pool.region ∧
      p.slotSize = t.site.pool.slotSize := by
  obtain ⟨l, hl, -⟩ := (h.kept name t a ht ha).mirrors
  have hne : t.site.pool.head.index ≠ Pool.nil := by
    intro hnil
    rw [Pool.acquire_of_nil hnil] at hacquire
    cases hacquire
  rw [Pool.acquire_of_ne_nil hne] at hacquire
  cases hacquire
  obtain ⟨rest, hfree, -⟩ := hl.linked.exists_cons hne
  exact ⟨hl.sound.lt_of_free (hfree ▸ List.mem_cons_self), rfl, rfl⟩

/-- Pools on one arena lie apart. -/
theorem Inv.remote (h : Inv w r) (ht : w.pools.find? name = some t)
    (ht' : w.pools.find? name' = some t') (hne : name ≠ name') (harena : t.arena = t'.arena) :
    t.site.pool.Remote t'.site.pool := by
  obtain ⟨a, ha, hw, -, -⟩ := h.pool ht
  obtain ⟨a', ha', hw', -, -⟩ := h.pool ht'
  rw [harena, ha'] at ha
  cases ha
  have hapart : t.site.pool.region.Apart t'.site.pool.region :=
    h.tiled.apart _ _ _ _ (fun he => hne (Owner.pool.inj he)) (own_of_pool ht) (own_of_pool ht')
      harena
  have haddress := hw.address_eq
  have haddress' := hw'.address_eq
  unfold Region.Apart at hapart
  unfold Pool.Remote
  omega

theorem Inv.addressing (h : Inv w r) (hspace : ∀ a ∈ w.arenas, a.base + a.size ≤ Size.limit) :
    Addressing w where
  pool name t ht := (h.roomy hspace ht).addressed
  taken name t a ht ha p m address hacquire := by
    have hpos : 0 < t.site.pool.slotSize := (h.roomy hspace ht).sound.slotSize_pos
    obtain ⟨slot, hslot, haddress, hrelease⟩ := Pool.releaseAt_of_acquireAt hpos hacquire
    obtain ⟨hlt, hregion, hsize⟩ := h.taken ht ha hslot
    exact ⟨slot, hslot, hlt, haddress, hrelease p hregion hsize⟩
  held name t k lease ht hk := by
    obtain ⟨a, ha, -, -, hkept⟩ := h.pool ht
    obtain ⟨l, hl, -⟩ := hkept.mirrors
    have hlt : k < t.site.pool.capacity := by
      refine hl.sound.lt_of_held ?_
      rw [← hl.keys_leases]
      exact Dict.mem_keys_of_find? hk
    refine ⟨hlt, fun m => ?_⟩
    rw [Pool.releaseAt, Pool.indexOf_addressOf (h.roomy hspace ht).sound.slotSize_pos]
  shared name t ht ι _ m es := by
    intro start htimely slot hslot
    have hroomy := h.roomy hspace ht
    obtain ⟨free, hinv⟩ := (Pool.Crew.inv_original hroomy.sound m).run hroomy.sound htimely
    exact hinv.addressOf_out hroomy hslot
  apart name name' t t' ht ht' hremote :=
    (h.roomy hspace ht).separate (h.roomy hspace ht') hremote
  neighbours name name' t t' ht ht' hne harena :=
    (h.roomy hspace ht).separate (h.roomy hspace ht') (h.remote ht ht' hne harena)

/-- **Addresses and slots correspond**: whatever operations are asked of a workspace whose mappings
lie in the address space, every pool finds its slots, and nothing else, by their addresses. -/
theorem addressing_run (hhost : host.PageAligned) (ops : List Op)
    (hspace : ∀ a ∈ (run host {} ops).1.arenas, a.base + a.size ≤ Size.limit) :
    Addressing (run host {} ops).1 :=
  (inv_run hhost inv_empty ops).addressing hspace

theorem addressing_neighbours :
    Host.reference.PageAligned ∧
      (∀ a ∈ (run Host.reference {} neighbours).1.arenas, a.base + a.size ≤ Size.limit) ∧
      (run Host.reference {} neighbours).1.arenas.length = 1 ∧
      ((run Host.reference {} neighbours).1.pools.find? "p").map
        (fun t => ([0x7F0000000000, 0x7F0000000040, 0x7F0000000080, 0x7EFFFFFFFFC0, 0].map
          t.site.pool.slotIndex)) = some [some 0, some 1, none, none, none] ∧
      Addressing (run Host.reference {} neighbours).1 := by
  have hspace : ∀ a ∈ (run Host.reference {} neighbours).1.arenas,
      a.base + a.size ≤ Size.limit := by
    decide +kernel
  exact ⟨pageAligned_reference, hspace, by decide +kernel, by decide +kernel,
    addressing_run pageAligned_reference neighbours hspace⟩

end Workspace
end Slab
