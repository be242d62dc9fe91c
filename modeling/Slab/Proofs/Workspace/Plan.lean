import Slab.Proofs.Workspace.Preservation

/-!
# Where things lie

Where regions are carved off, how they are split and where new pools go does not depend on what any
byte holds, nor on what has been done with any pool.

* `Arena.blank`, `Workspace.plan`: an arena with its bytes forgotten, and a workspace of such arenas
  with its names and regions but without pools;
* `Op.user`: the pool that an operation is about;
* `Workspace.plan_of_user`: an operation on a pool leaves the plan alone;
* `Workspace.Raised`, `Workspace.raised_step`: whether a new pool is built, and which, can be read
  off the plan;
* `Workspace.plan_step_congr`: any other operation turns equal plans into equal plans.
-/

namespace Slab

/-- The arena with its bytes forgotten. -/
def Arena.blank (a : Arena) : Arena := { a with memory := .zero }

@[simp] theorem Arena.blank_blank (a : Arena) : a.blank.blank = a.blank := rfl

theorem Arena.reserve_blank (a : Arena) (bytes : ℕ) :
    a.blank.reserve bytes = ((a.reserve bytes).1.blank, (a.reserve bytes).2) := by
  rw [Arena.reserve_eq, Arena.reserve_eq]
  cases Size.roundUp? cacheLine bytes with
  | none => rfl
  | some length =>
    by_cases hfit : bytes ≠ 0 ∧ a.cursor + length ≤ a.size
    · simp [Arena.blank, hfit]
    · simp [Arena.blank, hfit]

namespace Pool

/-- Whether a pool is built on an arena, and which, does not depend on the bytes. -/
theorem withSlotSize_blank (shape : Shape) (capacity asked : ℕ) (a : Arena) :
    (∃ e, withSlotSize shape capacity asked a = .error e ∧
      withSlotSize shape capacity asked a.blank = .error e) ∨
    ∃ p a' v, withSlotSize shape capacity asked a = .ok (p, a') ∧
      withSlotSize shape capacity asked a.blank = .ok (p, v) ∧ v.blank = a'.blank := by
  unfold withSlotSize
  cases slotBytes shape capacity asked with
  | error e => exact Or.inl ⟨e, rfl, rfl⟩
  | ok slotSize =>
    simp only [bind, Except.bind, show a.blank.remaining = a.remaining from rfl]
    cases footprint capacity slotSize a.remaining with
    | error e => exact Or.inl ⟨e, rfl, rfl⟩
    | ok required =>
      simp only [Arena.reserve_blank]
      rcases a.reserve required with ⟨a', none | region⟩
      · exact Or.inl ⟨_, rfl, rfl⟩
      · exact Or.inr ⟨_, _, _, rfl, rfl, rfl⟩

/-- Whether a pool is built in a region, and which, does not depend on the bytes. -/
theorem inRegion_memory (shape : Shape) (capacity asked : ℕ) (region : Region) (m v : Memory) :
    (∃ e, inRegion shape capacity asked region m = .error e ∧
      inRegion shape capacity asked region v = .error e) ∨
    ∃ p m' v', inRegion shape capacity asked region m = .ok (p, m') ∧
      inRegion shape capacity asked region v = .ok (p, v') := by
  unfold inRegion
  cases slotBytes shape capacity asked with
  | error e => exact Or.inl ⟨e, rfl, rfl⟩
  | ok slotSize =>
    simp only [bind, Except.bind]
    cases footprint capacity slotSize region.length with
    | error e => exact Or.inl ⟨e, rfl, rfl⟩
    | ok required =>
      by_cases hlt : region.length < required
      · exact Or.inl ⟨.capacityExceedsArena required region.length, by simp [hlt], by simp [hlt]⟩
      · exact Or.inr ⟨_, _, _, by simp only [hlt, if_false]; rfl, by simp only [hlt, if_false]; rfl⟩

end Pool

/-- The pool that an operation is about: it is done to the pool, or its counters are kept. -/
def Op.user : Op → Option String
  | .onPool name _ => some name
  | .save name _ => some name
  | _ => none

namespace Workspace

variable {host : Host} {w : Workspace}

/-- The arenas with their bytes forgotten, their names and the regions. -/
def plan (w : Workspace) : Workspace where
  arenas := w.arenas.map Arena.blank
  arenaNames := w.arenaNames
  regions := w.regions

@[simp] theorem plan_plan (w : Workspace) : w.plan.plan = w.plan := by
  simp [plan, Function.comp_def]

@[simp] theorem regions_plan (w : Workspace) : w.plan.regions = w.regions := rfl

theorem arena?_plan (w : Workspace) (name : String) :
    w.plan.arena? name = (w.arena? name).map (Prod.map id Arena.blank) := by
  unfold arena?
  simp only [plan]
  cases w.arenaNames.find? name with
  | none => rfl
  | some i => cases h : w.arenas[i]? <;> simp [h]

theorem plan_setArena (w : Workspace) (i : ℕ) (a : Arena) :
    (w.setArena i a).plan = w.plan.setArena i a.blank := by
  simp [plan, setArena, List.map_set]

theorem setArena_self {i : ℕ} {a : Arena} (h : w.arenas[i]? = some a) : w.setArena i a = w := by
  obtain ⟨hi, rfl⟩ := List.getElem?_eq_some_iff.1 h
  simp [setArena]

theorem getElem?_plan {i : ℕ} {a : Arena} (h : w.arenas[i]? = some a) :
    w.plan.arenas[i]? = some a.blank := by
  simp [plan, h]

/-- What becomes of the bytes alone is not in the plan. -/
theorem plan_setMemory {i : ℕ} {a : Arena} (h : w.arenas[i]? = some a) (m : Memory) :
    (w.setArena i { a with memory := m }).plan = w.plan := by
  rw [plan_setArena]
  exact setArena_self (a := a.blank) (getElem?_plan h)

/-- An operation on a pool leaves the plan alone. -/
theorem plan_of_user {op : Op} {name : String} (h : op.user = some name) :
    (w.step host op).1.plan = w.plan := by
  cases op with
  | onPool n op =>
    simp only [step, stepPool]
    cases w.pools.find? n with
    | none => rfl
    | some t =>
      cases ha : w.arenas[t.arena]? with
      | none => simp only [ha]
      | some a =>
        simp only [ha]
        exact plan_setMemory ha _
  | save n snapshot =>
    simp only [step]
    cases w.pools.find? n <;> rfl
  | _ => cases h

/-! ### New pools -/

/-- What becomes of a workspace with such arenas and pools, and of its plan, when a new pool is
asked for: both refuse it, or both build the same one. -/
inductive Raised (arenas : List Arena) (pools : Dict String Tenant) (name : String) :
    Workspace → Workspace → Prop
  | refused {w₁ v₁ : Workspace} (hplan : v₁.plan = w₁.plan) (harenas : w₁.arenas = arenas)
      (hpools : w₁.pools = pools) (hnone : v₁.pools = []) : Raised arenas pools name w₁ v₁
  | built {w₁ v₁ : Workspace} {t : Tenant} {a : Arena} (hplan : v₁.plan = w₁.plan)
      (hpools : w₁.pools = pools.insert name t) (hsome : v₁.pools = [(name, t)])
      (ha : w₁.arenas[t.arena]? = some a)
      (hmirrors : t.site.Mirrors t.site a.memory (.new t.site.pool.capacity)) :
      Raised arenas pools name w₁ v₁

theorem Raised.plan_eq {arenas : List Arena} {pools : Dict String Tenant} {name : String}
    {w₁ v₁ : Workspace} (h : Raised arenas pools name w₁ v₁) : v₁.plan = w₁.plan := by
  cases h with
  | refused hplan => exact hplan
  | built hplan => exact hplan

theorem raised_addPool {name : String} {element : Element} {i : ℕ} {p : Pool} {a a' v : Arena}
    (hi : w.arenas[i]? = some a) (hb : p.Built element.shape a.memory a'.memory)
    (hblank : v.blank = a'.blank) :
    Raised w.arenas w.pools name ((w.setArena i a').addPool name i element p).1
      ((w.plan.setArena i v).addPool name i element p).1 := by
  have hlt : i < w.arenas.length := (List.getElem?_eq_some_iff.1 hi).1
  refine .built (a := a') ?_ rfl rfl ?_ (Site.Mirrors.new hb hb.shape_eq)
  · show (w.plan.setArena i v).plan = (w.setArena i a').plan
    rw [plan_setArena, plan_setArena, plan_plan, hblank]
  · exact List.getElem?_set_self hlt

/-- A pool that cannot be built on an arena; without a slot size the slots are as large as an
element. -/
theorem poolOnArena_of_error {i : ℕ} {a : Arena} {arena : String}
    (ha : w.arena? arena = some (i, a)) (name : String) {element : Element} {capacity : ℕ}
    {slotSize : Option ℕ} {e : PoolError}
    (h : Pool.withSlotSize element.shape capacity (slotSize.getD element.shape.size) a = .error e) :
    w.poolOnArena name element capacity slotSize arena = (w, .poolError e) := by
  unfold poolOnArena
  rw [ha]
  cases slotSize with
  | none =>
    have hnew : Pool.new element.shape capacity a = .error e := h
    simp only [hnew]
  | some n =>
    have hsized : Pool.withSlotSize element.shape capacity n a = .error e := h
    simp only [hsized]

/-- A pool that is built on an arena. -/
theorem poolOnArena_of_ok {i : ℕ} {a a' : Arena} {arena : String}
    (ha : w.arena? arena = some (i, a)) (name : String) {element : Element} {capacity : ℕ}
    {slotSize : Option ℕ} {p : Pool}
    (h : Pool.withSlotSize element.shape capacity (slotSize.getD element.shape.size) a =
      .ok (p, a')) :
    w.poolOnArena name element capacity slotSize arena =
      (w.setArena i a').addPool name i element p := by
  unfold poolOnArena
  rw [ha]
  cases slotSize with
  | none =>
    have hnew : Pool.new element.shape capacity a = .ok (p, a') := h
    simp only [hnew]
  | some n =>
    have hsized : Pool.withSlotSize element.shape capacity n a = .ok (p, a') := h
    simp only [hsized]

theorem raised_onArena (name : String) (element : Element) (capacity : ℕ) (slotSize : Option ℕ)
    (arena : String) :
    Raised w.arenas w.pools name (w.poolOnArena name element capacity slotSize arena).1
      (w.plan.poolOnArena name element capacity slotSize arena).1 := by
  have hrefused : Raised w.arenas w.pools name w w.plan := .refused (plan_plan w) rfl rfl rfl
  cases ha : w.arena? arena with
  | none =>
    unfold poolOnArena
    rw [arena?_plan, ha]
    exact hrefused
  | some e =>
    obtain ⟨i, a⟩ := e
    have hi := arena?_eq_some ha
    have hplan : w.plan.arena? arena = some (i, a.blank) := by
      rw [arena?_plan, ha]
      rfl
    rcases Pool.withSlotSize_blank element.shape capacity (slotSize.getD element.shape.size) a with
      ⟨e, hp, hq⟩ | ⟨p, a', v, hp, hq, hblank⟩
    · rw [poolOnArena_of_error ha name hp, poolOnArena_of_error hplan name hq]
      exact hrefused
    · rw [poolOnArena_of_ok ha name hp, poolOnArena_of_ok hplan name hq]
      exact raised_addPool hi (Pool.built_of_withSlotSize hp).1 hblank

theorem raised_inRegion (name : String) (element : Element) (capacity : ℕ) (slotSize : Option ℕ)
    (region : String) :
    Raised w.arenas w.pools name (w.poolInRegion name element capacity slotSize region).1
      (w.plan.poolInRegion name element capacity slotSize region).1 := by
  unfold poolInRegion
  rw [regions_plan]
  cases w.regions.find? region with
  | none => exact .refused (plan_plan w) rfl rfl rfl
  | some g =>
    -- the region is used up in any case
    let w₀ : Workspace := { w with regions := w.regions.erase region }
    have hrefused : Raised w.arenas w.pools name w₀ w₀.plan := .refused (plan_plan w₀) rfl rfl rfl
    cases ha : w.arenas[g.arena]? with
    | none =>
      have hplan : w.plan.arenas[g.arena]? = none := by simp [plan, ha]
      simp only [ha, hplan]
      exact hrefused
    | some a =>
      simp only [ha, getElem?_plan ha]
      rcases Pool.inRegion_memory element.shape capacity (slotSize.getD element.shape.size) g.region
        a.memory a.blank.memory with ⟨e, hp, hq⟩ | ⟨p, m, v, hp, hq⟩
      · simp only [hp, hq]
        exact hrefused
      · simp only [hp, hq]
        have hbuilt : p.Built element.shape a.memory { a with memory := m }.memory :=
          (Pool.built_of_inRegion hp).1
        exact raised_addPool (w := w₀) (v := { a.blank with memory := v }) ha hbuilt rfl

theorem raised_step (host : Host) (name : String) (element : Element) (capacity : ℕ)
    (slotSize : Option ℕ) (ground : Ground) :
    Raised w.arenas w.pools name (w.step host (.pool name element capacity slotSize ground)).1
      (w.plan.step host (.pool name element capacity slotSize ground)).1 := by
  cases ground with
  | arena arena => exact raised_onArena name element capacity slotSize arena
  | region region => exact raised_inRegion name element capacity slotSize region

/-- What the plan is after an operation that is about no pool depends on the plan alone. -/
theorem plan_step (host : Host) {op : Op} (h : op.user = none) :
    (w.plan.step host op).1.plan = (w.step host op).1.plan := by
  cases op with
  | onPool name op => cases h
  | save pool name => cases h
  | pool name element capacity slotSize ground =>
    exact (raised_step host name element capacity slotSize ground).plan_eq
  | arena name options =>
    simp only [step]
    cases Arena.build host options with
    | error e => exact plan_plan w
    | ok a => simp [plan, Function.comp_def]
  | reserve arena bytes name =>
    simp only [step, arena?_plan]
    cases ha : w.arena? arena with
    | none => exact plan_plan w
    | some e =>
      obtain ⟨i, a⟩ := e
      simp only [Option.map_some, Prod.map, id, Arena.reserve_blank]
      rcases a.reserve bytes with ⟨a', none | region⟩
      · exact plan_plan w
      · simp [plan, setArena, List.map_set, Function.comp_def]
  | split region mid head tail =>
    simp only [step, Workspace.split, regions_plan]
    cases w.regions.find? region with
    | none => exact plan_plan w
    | some g =>
      rcases hs : g.region.split mid with _ | ⟨r₁, r₂⟩
      · simp only [hs]
        exact plan_plan w
      · simp only [hs]
        simp [plan, Function.comp_def]
  | arenaInfo name | zeroed name | describeArena name | domainOf name offset =>
    simp only [step, arena?_plan]
    cases w.arena? name <;> exact plan_plan w
  | describeRegion name =>
    simp only [step, regions_plan]
    cases w.regions.find? name <;> exact plan_plan w
  | since pool name =>
    simp only [step]
    cases w.pools.find? pool <;> cases w.snapshots.find? name <;> exact plan_plan w

/-- **The plan goes its own way**: workspaces with the same plan have the same plan afterwards. -/
theorem plan_step_congr (host : Host) {w' : Workspace} {op : Op} (h : op.user = none)
    (hplan : w.plan = w'.plan) : (w.step host op).1.plan = (w'.step host op).1.plan := by
  rw [← plan_step (w := w) host h, hplan, plan_step host h]

end Workspace
end Slab
