import Slab.Proofs.Pool.Construction
import Slab.Workspace.Basic

/-!
# Who owns which bytes

The bytes of an arena are given away in pieces, first to regions and then to pools. A region that is
split or given to a pool is used up, so no byte ever has two owners.

* `Region.Apart`, `Region.Within`: two pieces share no byte, a piece was carved off an arena;
* `Arena.Sound`: an arena starts a cache line and is carved up in cache lines;
* `Owner`, `Workspace.own`: regions and pools by name, and the pieces that they have;
* `Tiled`: the pieces of different owners share no byte.

`Tiled.sub`, `Tiled.grow` and `Tiled.put` say when the pieces stay apart: when owners lose their
pieces, when arenas change, and when an owner gets a piece. `Tiled.carve` and `Tiled.split` supply
the pieces.
-/

namespace Slab

/-- The pieces share no byte. -/
def Region.Apart (r r' : Region) : Prop :=
  r.offset + r.length ≤ r'.offset ∨ r'.offset + r'.length ≤ r.offset

theorem Region.Apart.symm {r r' : Region} (h : r.Apart r') : r'.Apart r := Or.symm h

/-- The piece was carved off the arena, from a cache line on. -/
structure Region.Within (r : Region) (a : Arena) : Prop where
  offset_dvd : cacheLine ∣ r.offset
  address_eq : r.address = a.base + r.offset
  end_le : r.offset + r.length ≤ a.cursor

/-- The arena starts a cache line, and the part that has been given away ends with one. -/
structure Arena.Sound (a : Arena) : Prop where
  base_dvd : cacheLine ∣ a.base
  cursor_dvd : cacheLine ∣ a.cursor
  cursor_le : a.cursor ≤ a.size

/-- Who may own bytes of an arena. -/
inductive Owner
  | region (name : String)
  | pool (name : String)
  deriving DecidableEq, Repr

/-- The pieces that the owners have lie within sound arenas, and no two of them share a byte. -/
structure Tiled (arenas : List Arena) (own : Owner → Option Holding) : Prop where
  sound : ∀ (i : ℕ) (a : Arena), arenas[i]? = some a → a.Sound
  within : ∀ x h, own x = some h → ∃ a, arenas[h.arena]? = some a ∧ h.region.Within a
  apart : ∀ x y h h', x ≠ y → own x = some h → own y = some h' → h.arena = h'.arena →
    h.region.Apart h'.region

namespace Tiled

variable {arenas arenas' : List Arena} {own own' : Owner → Option Holding}

theorem nil : Tiled [] (fun _ => none) where
  sound i a h := by simp at h
  within x h hx := by cases hx
  apart x y h h' _ hx := by cases hx

/-- Owners may lose their pieces. -/
theorem sub (h : Tiled arenas own) (hsub : ∀ x g, own' x = some g → own x = some g) :
    Tiled arenas own' where
  sound := h.sound
  within x g hx := h.within x g (hsub x g hx)
  apart x y g g' hne hx hy := h.apart x y g g' hne (hsub x g hx) (hsub y g' hy)

/-- Arenas may come and be carved up further. -/
theorem grow (h : Tiled arenas own) (hsound : ∀ (i : ℕ) (a : Arena), arenas'[i]? = some a → a.Sound)
    (hgrow : ∀ (i : ℕ) (a : Arena), arenas[i]? = some a →
      ∃ a' : Arena, arenas'[i]? = some a' ∧ a'.base = a.base ∧ a.cursor ≤ a'.cursor) :
    Tiled arenas' own where
  sound := hsound
  within x g hx := by
    obtain ⟨a, ha, hw⟩ := h.within x g hx
    obtain ⟨a', ha', hbase, hcursor⟩ := hgrow g.arena a ha
    exact ⟨a', ha', hw.offset_dvd, by rw [hbase]; exact hw.address_eq,
      Nat.le_trans hw.end_le hcursor⟩
  apart := h.apart

/-- An owner may get a piece that is apart from those of all others. -/
theorem put (h : Tiled arenas own) {x : Owner} {g : Holding}
    (hg : ∃ a, arenas[g.arena]? = some a ∧ g.region.Within a)
    (hapart : ∀ y k, y ≠ x → own y = some k → k.arena = g.arena → g.region.Apart k.region)
    (hown : ∀ y, own' y = if y = x then some g else own y) : Tiled arenas own' where
  sound := h.sound
  within y k hy := by
    rw [hown] at hy
    split_ifs at hy
    · cases hy
      exact hg
    · exact h.within y k hy
  apart y z k k' hne hy hz ha := by
    rw [hown] at hy hz
    -- at most one of the two owners is the one that gets the piece
    split_ifs at hy hz with hyx hzx hzx
    · exact absurd (hyx.trans hzx.symm) hne
    · cases hy
      exact hapart z k' hzx hz ha.symm
    · cases hz
      exact (hapart y k hyx hy ha).symm
    · exact h.apart y z k k' hne hy hz ha

/-- An arena may be replaced by one that starts where it did and is carved up no less. -/
theorem set (h : Tiled arenas own) {i : ℕ} {a a' : Arena} (ha : arenas[i]? = some a)
    (hsound : a'.Sound) (hbase : a'.base = a.base) (hcursor : a.cursor ≤ a'.cursor) :
    Tiled (arenas.set i a') own := by
  have hlt : i < arenas.length := (List.getElem?_eq_some_iff.1 ha).1
  refine h.grow (fun j b hb => ?_) fun j b hb => ?_
  · rw [List.getElem?_set] at hb
    split_ifs at hb
    · cases hb
      exact hsound
    · exact h.sound j b hb
  · rw [List.getElem?_set]
    split_ifs with hij
    · subst hij
      rw [ha] at hb
      cases hb
      exact ⟨a', rfl, hbase, hcursor⟩
    · exact ⟨b, hb, rfl, Nat.le_refl _⟩

/-- The memory of an arena may change. -/
theorem setMemory (h : Tiled arenas own) {i : ℕ} {a : Arena} (ha : arenas[i]? = some a)
    (m : Memory) : Tiled (arenas.set i { a with memory := m }) own := by
  have hs := h.sound i a ha
  exact h.set ha ⟨hs.base_dvd, hs.cursor_dvd, hs.cursor_le⟩ rfl (Nat.le_refl _)

/-- A region that is carved off an arena is apart from the pieces of all owners. -/
theorem carve (h : Tiled arenas own) {i bytes : ℕ} {a a' : Arena} {region : Region}
    (ha : arenas[i]? = some a) (hres : a.reserve bytes = (a', some region)) (m : Memory) :
    Tiled (arenas.set i { a' with memory := m }) own ∧ region.Within { a' with memory := m } ∧
      ∀ x g, own x = some g → g.arena = i → region.Apart g.region := by
  obtain ⟨rfl, rfl, hle⟩ := Pool.length_of_reserve hres
  have hs := h.sound i a ha
  have hdvd := Size.dvd_roundUp cacheLine bytes
  refine ⟨h.set ha ⟨hs.base_dvd, ?_, hle⟩ rfl (Nat.le_add_right _ _), ?_, ?_⟩
  · exact (Nat.dvd_add_right hs.cursor_dvd).2 hdvd
  · exact ⟨hs.cursor_dvd, rfl, Nat.le_refl _⟩
  · -- all pieces that were carved off before end at the cursor or earlier
    rintro x g hx rfl
    obtain ⟨b, hb, hw⟩ := h.within x g hx
    rw [ha] at hb
    cases hb
    exact Or.inr hw.end_le

end Tiled

/-- The two parts of a region that is split lie one after the other and fill it. -/
theorem Region.split_eq_some {r r₁ r₂ : Region} {mid : ℕ} (h : r.split mid = some (r₁, r₂)) :
    ∃ k, cacheLine ∣ k ∧ k ≤ r.length ∧ r₁ = ⟨r.address, r.offset, k⟩ ∧
      r₂ = ⟨r.address + k, r.offset + k, r.length - k⟩ := by
  unfold Region.split at h
  split at h
  · cases h
  · rename_i k hk
    obtain ⟨rfl, -⟩ := Size.roundUp?_eq_some_iff.1 hk
    split_ifs at h with hle
    cases h
    exact ⟨_, Size.dvd_roundUp _ _, hle, rfl, rfl⟩

/-- A part of a piece is apart from whatever the piece is apart from. -/
theorem Region.Apart.part {r r' s : Region} (h : r.Apart s) (h1 : r.offset ≤ r'.offset)
    (h2 : r'.offset + r'.length ≤ r.offset + r.length) : r'.Apart s := by
  unfold Region.Apart at h ⊢
  omega

/-- Both parts of a region that is split were carved off the arena, and they are apart. -/
theorem Region.Within.split {a : Arena} {r r₁ r₂ : Region} {mid : ℕ} (hw : r.Within a)
    (h : r.split mid = some (r₁, r₂)) :
    r₁.Within a ∧ r₂.Within a ∧ r₁.Apart r₂ ∧
      ∀ s, r.Apart s → r₁.Apart s ∧ r₂.Apart s := by
  obtain ⟨k, hk, hle, rfl, rfl⟩ := Region.split_eq_some h
  obtain ⟨hdvd, haddress, hend⟩ := hw
  refine ⟨⟨hdvd, haddress, ?_⟩, ⟨(Nat.dvd_add_right hdvd).2 hk, ?_, ?_⟩, ?_, ?_⟩
  · show r.offset + k ≤ a.cursor
    omega
  · show r.address + k = a.base + (r.offset + k)
    omega
  · show r.offset + k + (r.length - k) ≤ a.cursor
    omega
  · exact Or.inl (Nat.le_refl _)
  · intro s hs
    refine ⟨hs.part (Nat.le_refl _) ?_, hs.part (Nat.le_add_right _ _) ?_⟩
    · show r.offset + k ≤ r.offset + r.length
      omega
    · show r.offset + k + (r.length - k) ≤ r.offset + r.length
      omega

namespace Workspace

/-- The piece that an owner has. -/
def own (w : Workspace) : Owner → Option Holding
  | .region name => w.regions.find? name
  | .pool name => (w.pools.find? name).map fun t => ⟨t.arena, t.site.pool.region⟩

theorem own_of_pool {w : Workspace} {name : String} {t : Tenant}
    (h : w.pools.find? name = some t) :
    w.own (.pool name) = some ⟨t.arena, t.site.pool.region⟩ := by
  simp [own, h]

variable (w : Workspace) (name : String)

theorem own_insertRegion (g : Holding) (y : Owner) :
    { w with regions := w.regions.insert name g }.own y =
      if y = .region name then some g else w.own y := by
  cases y <;> simp [own, Dict.find?_insert]

theorem own_eraseRegion (y : Owner) :
    { w with regions := w.regions.erase name }.own y =
      if y = .region name then none else w.own y := by
  cases y <;> simp [own, Dict.find?_erase]

theorem own_insertPool (t : Tenant) (y : Owner) :
    { w with pools := w.pools.insert name t }.own y =
      if y = .pool name then some ⟨t.arena, t.site.pool.region⟩ else w.own y := by
  cases y with
  | region n => simp [own]
  | pool n =>
    simp only [own, Dict.find?_insert, Owner.pool.injEq]
    split <;> rfl

/-- When a region is used up, everybody else keeps his piece, apart from that of the region. -/
theorem tiled_eraseRegion {w : Workspace} (h : Tiled w.arenas w.own) {name : String} {g : Holding}
    (hg : w.regions.find? name = some g) :
    Tiled w.arenas { w with regions := w.regions.erase name }.own ∧
      ∀ y k, { w with regions := w.regions.erase name }.own y = some k → k.arena = g.arena →
        g.region.Apart k.region := by
  have hown : ∀ y k, { w with regions := w.regions.erase name }.own y = some k →
      y ≠ .region name ∧ w.own y = some k := by
    intro y k hy
    rw [own_eraseRegion] at hy
    split_ifs at hy with he
    exact ⟨he, hy⟩
  refine ⟨h.sub fun y k hy => (hown y k hy).2, fun y k hy hk => ?_⟩
  obtain ⟨hne, hy⟩ := hown y k hy
  exact h.apart (.region name) y g k (Ne.symm hne) hg hy hk.symm

end Workspace
end Slab
