import Slab.Proofs.Arena.Construction
import Slab.Proofs.Workspace.Invariant

/-!
# Nobody's bytes are overwritten

Every held slot contains what its holder wrote last, whatever has happened to other slots, pools and
regions since.

* `Host.PageAligned`: mappings start pages, as the operating system promises;
* `Workspace.follows_step`: every operation keeps the invariant and changes only what it may;
* `Workspace.inv_run`: so does every run;
* `Workspace.Intact`: what is promised of every state, with `Workspace.intact_run`.
-/

namespace Slab

/-- Mappings start pages. -/
def Host.PageAligned (host : Host) : Prop :=
  ∀ size base, host.map size = .ok base → pageSize ∣ base

/-- An arena that has just been built starts a cache line, and nothing has been carved off it. -/
theorem Arena.sound_of_build {host : Host} (hhost : host.PageAligned) {o : Arena.Options}
    {a : Arena} (h : Arena.build host o = .ok a) : a.Sound := by
  obtain ⟨-, hbase, hcursor⟩ := Arena.build_eq_ok h
  have hline : cacheLine ∣ pageSize := by decide
  refine ⟨Nat.dvd_trans hline (hhost _ _ hbase), ?_, ?_⟩
  · rw [hcursor]
    exact Nat.dvd_zero _
  · rw [hcursor]
    exact Nat.zero_le _

namespace Workspace

variable {host : Host} {w w' : Workspace} {r : Record}

theorem arena?_eq_some {name : String} {i : ℕ} {a : Arena} (h : w.arena? name = some (i, a)) :
    w.arenas[i]? = some a := by
  unfold arena? at h
  split at h
  · cases h
  · obtain ⟨b, hb, he⟩ := Option.map_eq_some_iff.1 h
    cases he
    exact hb

/-! ### Operations -/

theorem follows_arena (hhost : host.PageAligned) (h : Inv w r) (name : String)
    (options : Arena.Options) :
    Follows w (w.step host (.arena name options)).1 r (.arena name options)
      (w.step host (.arena name options)).2 := by
  simp only [step]
  cases hb : Arena.build host options with
  | error e => exact h.same rfl
  | ok a =>
    have hkeep : ∀ (i : ℕ) (b : Arena), w.arenas[i]? = some b →
        (w.arenas ++ [a])[i]? = some b := by
      intro i b hi
      rw [List.getElem?_append_left (List.getElem?_eq_some_iff.1 hi).1]
      exact hi
    refine h.quiet rfl (h.tiled.grow ?_ ?_) rfl fun i b hi => ⟨b, hkeep i b hi, rfl⟩
    · intro i b hi
      rcases List.mem_append.1 (List.mem_of_getElem? hi) with hmem | hmem
      · obtain ⟨j, hj⟩ := List.getElem?_of_mem hmem
        exact h.tiled.sound j b hj
      · rw [List.mem_singleton.1 hmem]
        exact Arena.sound_of_build hhost hb
    · exact fun i b hi => ⟨b, hkeep i b hi, rfl, Nat.le_refl _⟩

theorem follows_reserve (h : Inv w r) (arena : String) (bytes : ℕ) (name : String) :
    Follows w (w.step host (.reserve arena bytes name)).1 r (.reserve arena bytes name)
      (w.step host (.reserve arena bytes name)).2 := by
  simp only [step]
  cases ha : w.arena? arena with
  | none => exact h.same rfl
  | some e =>
    obtain ⟨i, a⟩ := e
    have hi := arena?_eq_some ha
    rcases hres : a.reserve bytes with ⟨a', none | region⟩
    · simp only [hres]
      exact h.same rfl
    · simp only [hres]
      obtain ⟨htiled, hwithin, hapart⟩ := h.tiled.carve hi hres a'.memory
      have hlt : i < w.arenas.length := (List.getElem?_eq_some_iff.1 hi).1
      refine h.quiet rfl (htiled.put (x := .region name) (g := ⟨i, region⟩) ?_ ?_ ?_) rfl ?_
      · exact ⟨a', List.getElem?_set_self hlt, hwithin⟩
      · exact fun y k _ hy hk => hapart y k hy hk
      · exact own_insertRegion (w.setArena i a') name ⟨i, region⟩
      · intro j b hj
        obtain ⟨-, rfl, -⟩ := Pool.length_of_reserve hres
        by_cases hij : i = j
        · subst hij
          rw [hi] at hj
          cases hj
          exact ⟨_, List.getElem?_set_self hlt, rfl⟩
        · exact ⟨b, (List.getElem?_set_ne hij).trans hj, rfl⟩

theorem follows_split (h : Inv w r) (region : String) (mid : ℕ) (head tail : String) :
    Follows w (w.split region mid head tail).1 r (.split region mid head tail)
      (w.split region mid head tail).2 := by
  unfold Workspace.split
  cases hr : w.regions.find? region with
  | none => exact h.same rfl
  | some g =>
    rcases hs : g.region.split mid with _ | ⟨r₁, r₂⟩
    · simp only [hs]
      exact h.same rfl
    · simp only [hs]
      have hown : w.own (.region region) = some g := hr
      obtain ⟨a, ha, hw⟩ := h.tiled.within _ _ hown
      obtain ⟨hw₁, hw₂, hapart, hpart⟩ := hw.split hs
      -- what is apart from the region is apart from both parts
      obtain ⟨h₀, hother⟩ := tiled_eraseRegion h.tiled hr
      have h₁ := h₀.put (x := .region head) (g := ⟨g.arena, r₁⟩) ⟨a, ha, hw₁⟩
        (fun y k _ hy hk => (hpart _ (hother y k hy hk)).1)
        (own_insertRegion { w with regions := w.regions.erase region } head ⟨g.arena, r₁⟩)
      have h₂ := h₁.put (x := .region tail) (g := ⟨g.arena, r₂⟩) ⟨a, ha, hw₂⟩ ?_
        (own_insertRegion { w with
          regions := (w.regions.erase region).insert head ⟨g.arena, r₁⟩ } tail ⟨g.arena, r₂⟩)
      · exact h.quiet rfl h₂ rfl fun i b hb => ⟨b, hb, rfl⟩
      · intro y k _ hy hk
        rw [own_insertRegion { w with regions := w.regions.erase region }] at hy
        split_ifs at hy
        · cases hy
          exact hapart.symm
        · exact (hpart _ (hother y k hy hk)).2

/-- A new pool in a region that was carved off the arena and belongs to nobody else. -/
theorem follows_built (h : Inv w r) {name : String} {i : ℕ} {a a' : Arena} {p : Pool}
    {element : Element} {capacity : ℕ} {slotSize : Option ℕ} {ground : Ground}
    (hi : w.arenas[i]? = some a) (hb : p.Built element.shape a.memory a'.memory)
    (hpools : w'.pools = w.pools.insert name ⟨i, ⟨element, p, []⟩⟩)
    (harenas : w'.arenas = w.arenas.set i a') (htiled : Tiled w'.arenas w'.own) :
    Follows w w' r (.pool name element capacity slotSize ground)
      (.pool p.capacity p.slotSize p.footprintBytes p.state) := by
  have houtside : ∀ b, (b < p.region.offset ∨ p.region.offset + p.region.length ≤ b) →
      a'.memory.load b = a.memory.load b := by
    intro b hb'
    have hfits := hb.fits
    exact hb.load_eq (by omega)
  refine h.update rfl htiled hpools harenas hi houtside (.new hb hb.shape_eq) fun b hne => ?_
  have hfind : w'.pools.find? name = some ⟨i, ⟨element, p, []⟩⟩ := by
    rw [hpools, Dict.find?_insert, if_pos rfl]
  refine .build hfind rfl ?_ rfl
  by_contra hn
  refine hne (houtside b ?_)
  simp only at hn
  omega

theorem follows_onArena (h : Inv w r) (name : String) {i capacity asked : ℕ} {a a' : Arena}
    {p : Pool} {element : Element} {slotSize : Option ℕ} {ground : Ground}
    (hi : w.arenas[i]? = some a)
    (hp : Pool.withSlotSize element.shape capacity asked a = .ok (p, a')) :
    Follows w ((w.setArena i a').addPool name i element p).1 r
      (.pool name element capacity slotSize ground)
      ((w.setArena i a').addPool name i element p).2 := by
  obtain ⟨hb, a₁, hres, ha'⟩ := Pool.built_of_withSlotSize hp
  obtain ⟨htiled, hwithin, hapart⟩ := h.tiled.carve hi hres a'.memory
  rw [← ha'] at htiled hwithin
  refine follows_built h hi hb rfl rfl ?_
  refine htiled.put (x := .pool name) (g := ⟨i, p.region⟩) ⟨a', ?_, hwithin⟩ ?_ ?_
  · exact List.getElem?_set_self (List.getElem?_eq_some_iff.1 hi).1
  · exact fun y k _ hy hk => hapart y k hy hk
  · exact own_insertPool (w.setArena i a') name ⟨i, ⟨element, p, []⟩⟩

theorem follows_poolOnArena (h : Inv w r) (name : String) (element : Element) (capacity : ℕ)
    (slotSize : Option ℕ) (arena : String) :
    Follows w (w.poolOnArena name element capacity slotSize arena).1 r
      (.pool name element capacity slotSize (.arena arena))
      (w.poolOnArena name element capacity slotSize arena).2 := by
  unfold poolOnArena
  cases ha : w.arena? arena with
  | none => exact h.same rfl
  | some e =>
    obtain ⟨i, a⟩ := e
    have hi := arena?_eq_some ha
    cases slotSize with
    | none =>
      rcases hp : Pool.withSlotSize element.shape capacity element.shape.size a with
        e | ⟨p, a'⟩
      · simp only [Pool.new, hp]
        exact h.same rfl
      · simp only [Pool.new, hp]
        exact follows_onArena h name hi hp
    | some n =>
      rcases hp : Pool.withSlotSize element.shape capacity n a with e | ⟨p, a'⟩
      · simp only [hp]
        exact h.same rfl
      · simp only [hp]
        exact follows_onArena h name hi hp

theorem follows_poolInRegion (h : Inv w r) (name : String) (element : Element) (capacity : ℕ)
    (slotSize : Option ℕ) (region : String) :
    Follows w (w.poolInRegion name element capacity slotSize region).1 r
      (.pool name element capacity slotSize (.region region))
      (w.poolInRegion name element capacity slotSize region).2 := by
  unfold poolInRegion
  cases hr : w.regions.find? region with
  | none => exact h.same rfl
  | some g =>
    have hown : w.own (.region region) = some g := hr
    obtain ⟨a, ha, hw⟩ := h.tiled.within _ _ hown
    obtain ⟨h₀, hother⟩ := tiled_eraseRegion h.tiled hr
    simp only [ha]
    rcases hp : Pool.inRegion element.shape capacity (slotSize.getD element.shape.size) g.region
      a.memory with e | ⟨p, m⟩
    · simp only
      exact h.quiet rfl h₀ rfl fun i b hb => ⟨b, hb, rfl⟩
    · simp only
      -- the region is used up, so the pool is the only owner of its bytes
      obtain ⟨hb, hregion⟩ := Pool.built_of_inRegion hp
      have h₁ := h₀.setMemory ha m
      refine follows_built h ha hb rfl rfl (h₁.put (x := .pool name) (g := ⟨g.arena, p.region⟩)
        ⟨{ a with memory := m }, ?_, ?_⟩ ?_ ?_)
      · exact List.getElem?_set_self (List.getElem?_eq_some_iff.1 ha).1
      · rw [hregion]
        exact ⟨hw.offset_dvd, hw.address_eq, hw.end_le⟩
      · intro y k _ hy hk
        rw [hregion]
        exact hother y k hy hk
      · exact own_insertPool
          (setArena { w with regions := w.regions.erase region } g.arena { a with memory := m })
          name ⟨g.arena, ⟨element, p, []⟩⟩

theorem follows_stepPool (h : Inv w r) (name : String) (op : PoolOp) :
    Follows w (w.stepPool name op).1 r (.onPool name op) (w.stepPool name op).2 := by
  unfold stepPool
  cases ht : w.pools.find? name with
  | none => exact h.same rfl
  | some t =>
    have hown := own_of_pool ht
    obtain ⟨a, ha, hw⟩ := h.tiled.within _ _ hown
    obtain ⟨s', m', answer, he, hkept, hregion, hbytes⟩ := (h.kept name t a ht ha).step a.base op
    simp only [ha, he]
    refine h.update (t := ⟨t.arena, s'⟩) rfl ?_ rfl rfl ha ?_ hkept fun b hne => ?_
    · -- the pool has the same piece as before
      refine (h.tiled.setMemory ha m').sub fun y g hy => ?_
      have hins := own_insertPool (w.setArena t.arena { a with memory := m' }) name
        ⟨t.arena, s'⟩ y
      rw [hins] at hy
      split_ifs at hy with hname
      · cases hy
        rw [hname, hregion]
        exact hown
      · exact hy
    · intro b hb
      by_contra hne
      obtain ⟨k, hk, hka, -⟩ := hbytes b hne
      have hin := (h.kept name t a ht ha).bounds hk hka
      simp only [hregion] at hb
      omega
    · obtain ⟨k, hk, hka, hcase⟩ := hbytes b hne
      by_cases hfree : r name k = none
      · exact .link ht rfl hk hka (Or.inl hfree)
      · rcases hcase with hnone | hnone | ⟨hwritten, hlt⟩
        · exact absurd hnone hfree
        · exact .link ht rfl hk hka (Or.inr hnone)
        · cases op <;> cases hwritten
          exact .write ht rfl hk hfree ⟨hka.1, hlt⟩

/-- **Every operation keeps the invariant**, and changes only bytes that it may change. -/
theorem follows_step (hhost : host.PageAligned) (h : Inv w r) (op : Op) :
    Follows w (w.step host op).1 r op (w.step host op).2 := by
  cases op with
  | arena name options => exact follows_arena hhost h name options
  | reserve arena bytes name => exact follows_reserve h arena bytes name
  | split region mid head tail => exact follows_split h region mid head tail
  | pool name element capacity slotSize ground =>
    cases ground with
    | arena arena => exact follows_poolOnArena h name element capacity slotSize arena
    | region region => exact follows_poolInRegion h name element capacity slotSize region
  | onPool name op => exact follows_stepPool h name op
  | arenaInfo name | zeroed name | describeArena name | domainOf name offset =>
    simp only [step]
    cases w.arena? name <;> exact h.same rfl
  | describeRegion name =>
    simp only [step]
    cases w.regions.find? name <;> exact h.same rfl
  | save pool name =>
    simp only [step]
    cases w.pools.find? pool with
    | none => exact h.same rfl
    | some t => exact h.quiet rfl h.tiled rfl fun i b hb => ⟨b, hb, rfl⟩
  | since pool name =>
    simp only [step]
    cases w.pools.find? pool <;> cases w.snapshots.find? name <;> exact h.same rfl

/-! ### Runs -/

/-- There is nothing yet. -/
theorem inv_empty : Inv {} .empty where
  tiled := by
    refine Tiled.nil.sub fun y g hy => ?_
    cases y <;> cases hy
  none := fun _ _ => rfl
  kept := by
    intro name t a ht
    cases ht

/-- **Every run keeps the invariant.** -/
theorem inv_run (hhost : host.PageAligned) (h : Inv w r) (ops : List Op) :
    Inv (run host w ops).1 (r.after ops (run host w ops).2) := by
  induction ops generalizing w r with
  | nil => exact h
  | cons op ops ih => exact ih (follows_step hhost h op).inv

/-! ### What is promised -/

/-- What is promised of every state, with what the users know. -/
structure Intact (host : Host) (w : Workspace) (r : Record) : Prop where
  /-- A held slot is a slot of a pool, and contains the value that its holder wrote last. -/
  held : ∀ name k τ, r name k = some τ → ∃ t a, w.pools.find? name = some t ∧
    w.arenas[t.arena]? = some a ∧ k < t.site.pool.capacity ∧
    ∀ v, τ.value? = some v → t.site.payload a.memory k = t.site.element.encode v
  /-- The pools take those slots as held that their users do. -/
  leases : ∀ name t k, w.pools.find? name = some t →
    t.site.leases.find? k = (r name k).map Tenure.lease
  /-- A slot has room for a value, starts a cache line and lies in the region of its pool, which
  lies in the arena. -/
  inside : ∀ name t k, w.pools.find? name = some t → k < t.site.pool.capacity →
    ∃ a, w.arenas[t.arena]? = some a ∧
      t.site.element.shape.size ≤ t.site.pool.slotSize ∧
      cacheLine ∣ t.site.pool.addressOf (UInt32.ofNat k) ∧
      t.site.pool.addressOf (UInt32.ofNat k) = a.base + t.site.pool.offsetOf (UInt32.ofNat k) ∧
      t.site.pool.region.offset ≤ t.site.pool.offsetOf (UInt32.ofNat k) ∧
      t.site.pool.offsetOf (UInt32.ofNat k) + t.site.pool.slotSize ≤
        t.site.pool.region.offset + t.site.pool.region.length ∧
      t.site.pool.region.offset + t.site.pool.region.length ≤ a.size
  /-- No two slots share a byte. -/
  apart : ∀ name name' t t' k k', w.pools.find? name = some t → w.pools.find? name' = some t' →
    t.arena = t'.arena → k < t.site.pool.capacity → k' < t'.site.pool.capacity →
    (name ≠ name' ∨ k ≠ k') →
      t.site.pool.offsetOf (UInt32.ofNat k) + t.site.pool.slotSize ≤
        t'.site.pool.offsetOf (UInt32.ofNat k') ∨
      t'.site.pool.offsetOf (UInt32.ofNat k') + t'.site.pool.slotSize ≤
        t.site.pool.offsetOf (UInt32.ofNat k)
  /-- The next operation changes only bytes that it may change. -/
  bytes : ∀ op i b, i < w.arenas.length → (w.step host op).1.byte? i b ≠ w.byte? i b →
    MayChange w (w.step host op).1 r i b op (w.step host op).2

/-- Every pool lies in a region that was carved off a sound arena, and keeps what the record
says. -/
theorem Inv.pool (h : Inv w r) {name : String} {t : Tenant} (ht : w.pools.find? name = some t) :
    ∃ a, w.arenas[t.arena]? = some a ∧ t.site.pool.region.Within a ∧ a.Sound ∧
      t.site.Kept a.memory (r name) := by
  obtain ⟨a, ha, hw⟩ := h.tiled.within _ _ (own_of_pool ht)
  exact ⟨a, ha, hw, h.tiled.sound _ a ha, h.kept name t a ht ha⟩

theorem Inv.payload_of_held (h : Inv w r) {name : String} {k : ℕ} {τ : Tenure}
    (hk : r name k = some τ) :
    ∃ t a, w.pools.find? name = some t ∧ w.arenas[t.arena]? = some a ∧
      k < t.site.pool.capacity ∧
      ∀ v, τ.value? = some v → t.site.payload a.memory k = t.site.element.encode v := by
  cases ht : w.pools.find? name with
  | none =>
    rw [h.none name ht] at hk
    cases hk
  | some t =>
    obtain ⟨a, ha, -, -, hkept⟩ := h.pool ht
    obtain ⟨l, hl, hheld⟩ := hkept.mirrors
    rw [← hheld] at hk
    exact ⟨t, a, rfl, ha, hl.sound.lt_of_held (Dict.mem_keys_of_find? hk),
      fun v hv => hl.payload_eq k τ v hk hv⟩

theorem Inv.slot_inside (h : Inv w r) {name : String} {t : Tenant} {k : ℕ}
    (ht : w.pools.find? name = some t) (hk : k < t.site.pool.capacity) :
    ∃ a, w.arenas[t.arena]? = some a ∧
      t.site.element.shape.size ≤ t.site.pool.slotSize ∧
      cacheLine ∣ t.site.pool.addressOf (UInt32.ofNat k) ∧
      t.site.pool.addressOf (UInt32.ofNat k) = a.base + t.site.pool.offsetOf (UInt32.ofNat k) ∧
      t.site.pool.region.offset ≤ t.site.pool.offsetOf (UInt32.ofNat k) ∧
      t.site.pool.offsetOf (UInt32.ofNat k) + t.site.pool.slotSize ≤
        t.site.pool.region.offset + t.site.pool.region.length ∧
      t.site.pool.region.offset + t.site.pool.region.length ≤ a.size := by
  obtain ⟨a, ha, hw, hs, hkept⟩ := h.pool ht
  obtain ⟨l, hl, -⟩ := hkept.mirrors
  obtain ⟨h1, h2⟩ := hkept.slot_bounds hk
  refine ⟨a, ha, hl.size_le, ?_, ?_, h1, h2, Nat.le_trans hw.end_le hs.cursor_le⟩
  · -- the arena, the region and the slot size are all made of cache lines
    rw [Pool.addressOf, hw.address_eq]
    exact Nat.dvd_add (Nat.dvd_add hs.base_dvd hw.offset_dvd)
      (Nat.dvd_mul_left_of_dvd hl.layout.line_dvd _)
  · rw [Pool.addressOf, hw.address_eq, Nat.add_assoc]
    rfl

theorem Inv.slots_apart (h : Inv w r) {name name' : String} {t t' : Tenant} {k k' : ℕ}
    (ht : w.pools.find? name = some t) (ht' : w.pools.find? name' = some t')
    (harena : t.arena = t'.arena) (hk : k < t.site.pool.capacity)
    (hk' : k' < t'.site.pool.capacity) (hne : name ≠ name' ∨ k ≠ k') :
    t.site.pool.offsetOf (UInt32.ofNat k) + t.site.pool.slotSize ≤
        t'.site.pool.offsetOf (UInt32.ofNat k') ∨
      t'.site.pool.offsetOf (UInt32.ofNat k') + t'.site.pool.slotSize ≤
        t.site.pool.offsetOf (UInt32.ofNat k) := by
  obtain ⟨a, -, -, -, hkept⟩ := h.pool ht
  obtain ⟨a', -, -, -, hkept'⟩ := h.pool ht'
  by_cases hname : name = name'
  · -- two slots of one pool
    subst hname
    rw [ht] at ht'
    cases ht'
    obtain ⟨l, hl, -⟩ := hkept.mirrors
    refine Pool.Slots.place_disjoint fun he => ?_
    exact hne.elim (· rfl) (· (Pool.ofNat_inj_of_lt hl.layout.capacity_le hk hk' he))
  · -- slots of two pools, which lie in regions that are apart
    have hapart := h.tiled.apart _ _ _ _ (fun he => hname (Owner.pool.inj he))
      (own_of_pool ht) (own_of_pool ht') harena
    have hb := hkept.slot_bounds hk
    have hb' := hkept'.slot_bounds hk'
    simp only [Region.Apart] at hapart
    omega

theorem Inv.intact (hhost : host.PageAligned) (h : Inv w r) : Intact host w r where
  held _ _ _ hk := h.payload_of_held hk
  leases name t k ht := by
    obtain ⟨a, ha, -, -, hkept⟩ := h.pool ht
    obtain ⟨l, hl, hheld⟩ := hkept.mirrors
    rw [hl.find?_leases, ← hheld]
  inside _ _ _ ht hk := h.slot_inside ht hk
  apart _ _ _ _ _ _ ht ht' harena hk hk' hne := h.slots_apart ht ht' harena hk hk' hne
  bytes op := (follows_step hhost h op).bytes

/-- **Nobody's bytes are overwritten**: whatever operations are asked of a workspace, every held
slot contains what its holder wrote last, no two slots share a byte, and each operation changes only
bytes that belong to nobody else. -/
theorem intact_run (hhost : host.PageAligned) (ops : List Op) :
    Intact host (run host {} ops).1 (Record.empty.after ops (run host {} ops).2) :=
  (inv_run hhost inv_empty ops).intact hhost

/-- Two pools side by side, one in half of a region and one on the same arena. A slot of the second
is given back and taken again while the first pool's guard keeps its value. -/
def neighbours : List Op :=
  [.arena "a" { sizeBytes := 4096 }, .reserve "a" 256 "r", .split "r" 128 "h" "t",
    .pool "p" (.unsigned .double) 2 none (.region "h"),
    .pool "q" (.unsigned .single) 1 none (.arena "a"),
    .onPool "p" (.acquireWith (.number 7)), .onPool "q" .acquire,
    .onPool "q" (.write 0 (.number 9)), .onPool "p" .acquire, .onPool "p" (.release 1),
    .onPool "q" (.release 0), .onPool "q" (.acquireWith (.number 8))]

theorem pageAligned_reference : Host.reference.PageAligned := by
  intro size base h
  simp only [Host.reference] at h
  split_ifs at h
  cases h
  decide

theorem intact_neighbours :
    Host.reference.PageAligned ∧
      Record.empty.after neighbours (run Host.reference {} neighbours).2 "p" 0 =
        some (.guarded (.number 7)) ∧
      Record.empty.after neighbours (run Host.reference {} neighbours).2 "q" 0 =
        some (.guarded (.number 8)) ∧
      Intact Host.reference (run Host.reference {} neighbours).1
        (Record.empty.after neighbours (run Host.reference {} neighbours).2) :=
  ⟨pageAligned_reference, by decide +kernel, by decide +kernel,
    intact_run pageAligned_reference neighbours⟩

end Workspace
end Slab
