import Slab.Proofs.Pool.Verdict
import Slab.Proofs.Workspace.Plan

/-!
# Requests for pools

A request for a pool is decided by the room that the arena or the region has, wherever a run has led
to. One that is refused changes nothing in the workspace, but for the region that it names, which is
used up. One for a pool in a region never carves anything off an arena.

* `Workspace.Bounded`: all sizes are such that a machine word holds them, with `bounded_step` and
  `bounded_run`;
* `Workspace.Decides`: what is promised of the requests;
* `construction_decided`: **what is promised of the constructions and of the requests**.
-/

namespace Slab

namespace Arena

variable {a a' : Arena}

theorem bounded_build {host : Host} {o : Options} (h : build host o = .ok a) : a.Bounded where
  cursor_le := by
    rw [(build_eq_ok h).2.2]
    exact Nat.zero_le _
  size_lt := size_lt_of_build h

theorem Bounded.reserve (h : a.Bounded) {bytes : ℕ} {region : Region}
    (hres : a.reserve bytes = (a', some region)) :
    a'.Bounded ∧ region.length < Size.limit := by
  obtain ⟨rfl, rfl, hle⟩ := Pool.length_of_reserve hres
  have hsize := h.size_lt
  exact ⟨⟨hle, hsize⟩, Nat.lt_of_le_of_lt (Nat.le_of_add_left_le hle) hsize⟩

/-- The memory does not matter. -/
theorem Bounded.write (h : a.Bounded) (m : Memory) : Bounded { a with memory := m } :=
  ⟨h.cursor_le, h.size_lt⟩

end Arena

namespace Workspace

variable {host : Host} {w : Workspace} {name : String}

/-! ### Sizes -/

/-- All arenas and regions have sizes that a machine word holds. -/
structure Bounded (w : Workspace) : Prop where
  arenas : ∀ a ∈ w.arenas, a.Bounded
  regions : ∀ name h, w.regions.find? name = some h → h.region.length < Size.limit

namespace Bounded

theorem empty : Bounded {} where
  arenas a ha := by cases ha
  regions name h hr := by cases hr

theorem arena (h : w.Bounded) {i : ℕ} {a : Arena} (hi : w.arenas[i]? = some a) : a.Bounded :=
  h.arenas a (List.mem_of_getElem? hi)

theorem setArena (h : w.Bounded) (i : ℕ) {a : Arena} (ha : a.Bounded) :
    (w.setArena i a).Bounded where
  arenas b hb := by
    rcases List.mem_or_eq_of_mem_set hb with hb | rfl
    · exact h.arenas b hb
    · exact ha
  regions := h.regions

theorem insertRegion (h : w.Bounded) (name : String) {g : Holding}
    (hg : g.region.length < Size.limit) :
    Bounded { w with regions := w.regions.insert name g } where
  arenas := h.arenas
  regions n k hk := by
    rw [Dict.find?_insert] at hk
    split_ifs at hk
    · cases hk
      exact hg
    · exact h.regions n k hk

theorem eraseRegion (h : w.Bounded) (name : String) :
    Bounded { w with regions := w.regions.erase name } where
  arenas := h.arenas
  regions n k hk := by
    rw [Dict.find?_erase] at hk
    split_ifs at hk
    exact h.regions n k hk

theorem addPool (h : w.Bounded) (i : ℕ) (element : Element) (p : Pool) :
    (w.addPool name i element p).1.Bounded := ⟨h.arenas, h.regions⟩

theorem split (h : w.Bounded) (region : String) (mid : ℕ) (head tail : String) :
    (w.split region mid head tail).1.Bounded := by
  unfold Workspace.split
  cases hr : w.regions.find? region with
  | none => exact h
  | some g =>
    rcases hs : g.region.split mid with _ | ⟨r₁, r₂⟩
    · simp only [hs]
      exact h
    · simp only [hs]
      have hlen := h.regions region g hr
      obtain ⟨k, -, hle, rfl, rfl⟩ := Region.split_eq_some hs
      have h₁ := (h.eraseRegion region).insertRegion head
        (g := ⟨g.arena, ⟨g.region.address, g.region.offset, k⟩⟩) (Nat.lt_of_le_of_lt hle hlen)
      exact h₁.insertRegion tail (Nat.lt_of_le_of_lt (Nat.sub_le _ _) hlen)

theorem poolOnArena (h : w.Bounded) (element : Element) (capacity : ℕ) (slotSize : Option ℕ)
    (arena : String) : (w.poolOnArena name element capacity slotSize arena).1.Bounded := by
  cases ha : w.arena? arena with
  | none =>
    unfold Workspace.poolOnArena
    rw [ha]
    exact h
  | some e =>
    obtain ⟨i, a⟩ := e
    rcases hp : Pool.withSlotSize element.shape capacity (slotSize.getD element.shape.size) a with
      e | ⟨p, a'⟩
    · rw [poolOnArena_of_error ha name hp]
      exact h
    · rw [poolOnArena_of_ok ha name hp]
      obtain ⟨-, a₁, hres, ha'⟩ := Pool.built_of_withSlotSize hp
      have ha₁ := ((h.arena (arena?_eq_some ha)).reserve hres).1
      exact (h.setArena i (ha' ▸ ha₁.write a'.memory)).addPool i element p

theorem poolInRegion (h : w.Bounded) (element : Element) (capacity : ℕ) (slotSize : Option ℕ)
    (region : String) : (w.poolInRegion name element capacity slotSize region).1.Bounded := by
  unfold Workspace.poolInRegion
  cases w.regions.find? region with
  | none => exact h
  | some g =>
    have h₀ := h.eraseRegion region
    cases ha : w.arenas[g.arena]? with
    | none =>
      simp only [ha]
      exact h₀
    | some a =>
      simp only [ha]
      rcases Pool.inRegion element.shape capacity (slotSize.getD element.shape.size) g.region
        a.memory with e | ⟨p, m⟩
      · exact h₀
      · exact (h₀.setArena g.arena ((h.arena ha).write m)).addPool g.arena element p

theorem stepPool (h : w.Bounded) (op : PoolOp) : (w.stepPool name op).1.Bounded := by
  unfold Workspace.stepPool
  cases w.pools.find? name with
  | none => exact h
  | some t =>
    cases ha : w.arenas[t.arena]? with
    | none =>
      simp only [ha]
      exact h
    | some a =>
      simp only [ha]
      have h₁ := h.setArena t.arena ((h.arena ha).write (t.site.step a.base a.memory op).2.1)
      exact ⟨h₁.arenas, h₁.regions⟩

end Bounded

theorem bounded_step (h : w.Bounded) (op : Op) : (step host w op).1.Bounded := by
  cases op with
  | arena name options =>
    simp only [step]
    cases ha : Arena.build host options with
    | error e => exact h
    | ok a =>
      refine ⟨fun b hb => ?_, h.regions⟩
      rcases List.mem_append.1 hb with hb | hb
      · exact h.arenas b hb
      · rw [List.mem_singleton.1 hb]
        exact Arena.bounded_build ha
  | reserve arena bytes name =>
    simp only [step]
    cases ha : w.arena? arena with
    | none => exact h
    | some e =>
      obtain ⟨i, a⟩ := e
      rcases hres : a.reserve bytes with ⟨a', _ | region⟩
      · simp only [hres]
        exact h
      · simp only [hres]
        obtain ⟨ha', hregion⟩ := (h.arena (arena?_eq_some ha)).reserve hres
        exact (h.setArena i ha').insertRegion name hregion
  | split region mid head tail => exact h.split region mid head tail
  | pool name element capacity slotSize ground =>
    cases ground with
    | arena arena => exact h.poolOnArena element capacity slotSize arena
    | region region => exact h.poolInRegion element capacity slotSize region
  | onPool name op => exact h.stepPool op
  | arenaInfo name | zeroed name | describeArena name | domainOf name offset =>
    simp only [step]
    cases w.arena? name <;> exact h
  | describeRegion name =>
    simp only [step]
    cases w.regions.find? name <;> exact h
  | save pool name =>
    simp only [step]
    cases w.pools.find? pool with
    | none => exact h
    | some t => exact ⟨h.arenas, h.regions⟩
  | since pool name =>
    simp only [step]
    cases w.pools.find? pool <;> cases w.snapshots.find? name <;> exact h

theorem bounded_run (h : w.Bounded) (ops : List Op) : (run host w ops).1.Bounded := by
  induction ops generalizing w with
  | nil => exact h
  | cons op ops ih => exact ih (bounded_step h op)

/-! ### What is promised -/

/-- What is promised of requests for a pool in a workspace. Slots have room for an element where no
size is asked for. -/
structure Decides (host : Host) (w : Workspace) (name : String) (element : Element) (capacity : ℕ)
    (slotSize : Option ℕ) : Prop where
  /-- A request that an arena has no room for changes nothing. -/
  refused : ∀ arena i a, w.arena? arena = some (i, a) → ∀ e,
    Pool.Refused element.shape capacity (slotSize.getD element.shape.size) a.remaining e →
    step host w (.pool name element capacity slotSize (.arena arena)) = (w, .poolError e)
  /-- Any other gets exactly the bytes of its slots. -/
  granted : ∀ arena i a, w.arena? arena = some (i, a) →
    (∀ e, ¬ Pool.Refused element.shape capacity (slotSize.getD element.shape.size) a.remaining e) →
    ∃ p m, Pool.Placed element.shape capacity (slotSize.getD element.shape.size)
        ⟨a.base + a.reserved, a.reserved, capacity * p.slotSize⟩ a.memory p m ∧
      step host w (.pool name element capacity slotSize (.arena arena)) =
        (w.setArena i { a with cursor := a.reserved + capacity * p.slotSize, memory := m }).addPool
          name i element p
  /-- A request that a region has no room for uses the region up. -/
  refused_within : ∀ region h a, w.regions.find? region = some h → w.arenas[h.arena]? = some a →
    ∀ e, Pool.Refused element.shape capacity (slotSize.getD element.shape.size) h.region.length e →
    step host w (.pool name element capacity slotSize (.region region)) =
      ({ w with regions := w.regions.erase region }, .poolError e)
  /-- Any other gets the region, and the arena is not carved up further. -/
  granted_within : ∀ region h a, w.regions.find? region = some h → w.arenas[h.arena]? = some a →
    (∀ e, ¬ Pool.Refused element.shape capacity (slotSize.getD element.shape.size)
      h.region.length e) →
    ∃ p m, Pool.Placed element.shape capacity (slotSize.getD element.shape.size) h.region a.memory
        p m ∧
      step host w (.pool name element capacity slotSize (.region region)) =
        (setArena { w with regions := w.regions.erase region } h.arena
          { a with memory := m }).addPool name h.arena element p

theorem decides (h : w.Bounded) (host : Host) (name : String) (element : Element) (capacity : ℕ)
    (slotSize : Option ℕ) : Decides host w name element capacity slotSize where
  refused arena i a ha e he := poolOnArena_of_error ha name (Pool.withSlotSize_of_refused he)
  granted arena i a ha hfree := by
    obtain ⟨p, m, hplaced, hp⟩ :=
      Pool.withSlotSize_of_not_refused (h.arena (arena?_eq_some ha)) hfree
    exact ⟨p, m, hplaced, poolOnArena_of_ok ha name hp⟩
  refused_within region g a hg ha e he := by
    simp only [step, poolInRegion, hg, ha, Pool.inRegion_of_refused he]
  granted_within region g a hg ha hfree := by
    obtain ⟨p, m, hplaced, hp⟩ :=
      Pool.inRegion_of_not_refused (m := a.memory) (h.regions region g hg) hfree
    refine ⟨p, m, hplaced, ?_⟩
    simp only [step, poolInRegion, hg, ha, hp]

end Workspace

namespace Pool

/-- **A construction does all or nothing, and the room decides.** So it is with every arena and
every region, and with every request in a workspace, wherever a run has led to. -/
theorem construction_decided (shape : Shape) (capacity asked : ℕ) {a : Arena} (ha : a.Bounded)
    {region : Region} (hregion : region.length < Size.limit) (m : Memory) (host : Host)
    (ops : List Op) :
    Decided shape capacity asked a ∧ DecidedWithin shape capacity asked region m ∧
      (Workspace.run host {} ops).1.Bounded ∧
      ∀ name element capacity slotSize, Workspace.Decides host (Workspace.run host {} ops).1 name
        element capacity slotSize := by
  have hw : (Workspace.run host {} ops).1.Bounded := Workspace.bounded_run .empty ops
  exact ⟨decided shape capacity asked ha, decidedWithin shape capacity asked hregion m, hw,
    Workspace.decides hw host⟩

/-- An arena of one page. -/
def onePage : Arena where
  base := 0
  size := 4096
  domain := 0
  hugePages := false
  bound := false
  cursor := 0
  memory := .zero

/-- The page has room for 64 slots of a cache line and not for 65, and so has a region of its
size. -/
theorem construction_decided_page :
    (∃ p m, withSlotSize ⟨8, 8⟩ 64 8 onePage =
        .ok (p, { onePage with cursor := 4096, memory := m })) ∧
      withSlotSize ⟨8, 8⟩ 65 8 onePage = .error (.capacityExceedsArena 4160 4096) ∧
      inRegion ⟨8, 8⟩ 65 8 ⟨0, 0, 4096⟩ .zero = .error (.capacityExceedsArena 4160 4096) := by
  have hpage : onePage.Bounded := ⟨by decide, by decide⟩
  have hregion : (⟨0, 0, 4096⟩ : Region).length < Size.limit := by decide
  have hleast : IsLeast {n | Suits ⟨8, 8⟩ 8 n} 64 := isLeast_roundUp ⟨8, 8⟩ 8
  have hfit : ∀ k, 0 < k → k < UInt32.size → ∀ e, ¬ Misfit ⟨8, 8⟩ k 8 e := by
    rintro k h0 h1 e (h | h | ⟨-, -, h⟩ | ⟨-, -, -, h⟩)
    · exact absurd h (Nat.ne_of_gt h0)
    · exact absurd h (Nat.not_le_of_lt h1)
    · exact absurd h (by decide)
    · exact absurd (h 64 hleast.1) (by decide)
  have hfull : Refused ⟨8, 8⟩ 65 8 4096 (.capacityExceedsArena 4160 4096) :=
    .full (hfit 65 (by decide) (by decide)) hleast (by decide)
  obtain ⟨hdecided, -⟩ :=
    construction_decided ⟨8, 8⟩ 64 8 hpage hregion .zero .reference []
  obtain ⟨hdecided', hwithin, -⟩ :=
    construction_decided ⟨8, 8⟩ 65 8 hpage hregion .zero .reference []
  refine ⟨?_, (hdecided'.verdict _).2 hfull, (hwithin.verdict _).2 hfull⟩
  have hfree : ∀ e, ¬ Refused ⟨8, 8⟩ 64 8 onePage.remaining e := by
    rintro e (h | ⟨-, hn, h⟩)
    · exact hfit 64 (by decide) (by decide) e h
    · rw [hn.unique hleast] at h
      exact absurd h (by decide)
  obtain ⟨p, m, hplaced, hp, -⟩ := hdecided.all hfree
  rw [hplaced.least.unique hleast] at hp
  exact ⟨p, m, hp⟩

end Pool
end Slab
