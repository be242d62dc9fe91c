import Slab.Arena.Construction
import Slab.Workspace.Site

/-!
# Workspaces

Arenas, regions and pools under names, and the operations on them one after another.

* `Workspace`: everything that is named;
* `Op`, `Answer`: what can be asked, and what is answered;
* `Workspace.step`, `Workspace.run`: one operation, and a list of them.

A name that is used again names the newer thing. Arenas stay where they are, so a pool outlives the
name of its arena. A region that is split or given to a pool is used up.
-/

namespace Slab

/-- A region and the number of its arena. -/
structure Holding where
  arena : Nat
  region : Region
  deriving DecidableEq, Repr

/-- A pool and the number of its arena. -/
structure Tenant where
  arena : Nat
  site : Site
  deriving DecidableEq, Repr

/-- Arenas by number, and everything by name. -/
structure Workspace where
  arenas : List Arena := []
  arenaNames : Dict String Nat := []
  regions : Dict String Holding := []
  pools : Dict String Tenant := []
  snapshots : Dict String Pool.Snapshot := []

/-- Where a new pool goes. -/
inductive Ground
  | arena (name : String)
  | region (name : String)
  deriving DecidableEq, Repr

/-- What can be asked of a workspace. -/
inductive Op
  | arena (name : String) (options : Arena.Options)
  | arenaInfo (name : String)
  | zeroed (name : String)
  | domainOf (name : String) (offset : Nat)
  | describeArena (name : String)
  | reserve (arena : String) (bytes : Nat) (name : String)
  | describeRegion (name : String)
  | split (region : String) (mid : Nat) (head tail : String)
  | pool (name : String) (element : Element) (capacity : Nat) (slotSize : Option Nat)
      (ground : Ground)
  | onPool (name : String) (op : PoolOp)
  | save (pool name : String)
  | since (pool name : String)
  deriving DecidableEq, Repr

/-- What an arena tells about itself. -/
structure ArenaReport where
  size : Nat
  domain : UInt32
  hugePages : Bool
  reserved : Nat
  remaining : Nat
  /-- Whether it starts a page. -/
  pageAligned : Bool
  deriving DecidableEq, Repr

/-- What a region tells about itself. -/
structure RegionReport where
  offset : Nat
  length : Nat
  isEmpty : Bool
  /-- Whether its address lies at its offset from the first byte of the arena. -/
  consistent : Bool
  deriving DecidableEq, Repr

/-- What the counters and the occupancy of a pool are. -/
structure PoolState where
  acquired : Nat
  released : Nat
  exhausted : Nat
  inUse : Nat
  freeCount : Nat
  deriving DecidableEq, Repr

/-- What a workspace answers. -/
inductive Answer
  | noArena
  | noRegion
  | noPool
  | noSnapshot
  | arenaError (e : ArenaError)
  | poolError (e : PoolError)
  | arena (report : ArenaReport)
  | zeroed (b : Bool)
  | domain (d : Option UInt32)
  | text (s : String)
  | reserved (region : Option RegionReport) (reserved remaining : Nat)
  | split (head tail : RegionReport)
  | rejected (region : RegionReport)
  | pool (capacity slotSize footprint : Nat) (state : PoolState)
  | onPool (answer : PoolAnswer) (state : PoolState)
  | snapshot (s : Pool.Snapshot)
  deriving DecidableEq, Repr

namespace Arena

/-- What the arena tells about itself. -/
def report (a : Arena) : ArenaReport :=
  { size := a.size, domain := a.domain, hugePages := a.hugePages, reserved := a.reserved,
    remaining := a.remaining, pageAligned := a.base % pageSize == 0 }

end Arena

namespace Pool

/-- What the counters and the occupancy are. -/
def state (p : Pool) : PoolState :=
  { acquired := p.counters.acquired.toNat, released := p.counters.released.toNat,
    exhausted := p.counters.exhausted.toNat, inUse := p.inUse, freeCount := p.freeCount }

end Pool

namespace Workspace

/-- The arena of a name, with its number. -/
def arena? (w : Workspace) (name : String) : Option (Nat × Arena) :=
  match w.arenaNames.find? name with
  | none => none
  | some i => w.arenas[i]?.map fun a => (i, a)

/-- The workspace with another arena at a number. -/
def setArena (w : Workspace) (i : Nat) (a : Arena) : Workspace :=
  { w with arenas := w.arenas.set i a }

/-- What a region tells about itself. -/
def reportRegion (w : Workspace) (h : Holding) : RegionReport :=
  let base := match w.arenas[h.arena]? with
    | some a => a.base
    | none => 0
  { offset := h.region.offset, length := h.region.length, isEmpty := h.region.isEmpty,
    consistent := h.region.address == base + h.region.offset }

/-- The workspace with a new pool. -/
def addPool (w : Workspace) (name : String) (arena : Nat) (element : Element) (pool : Pool) :
    Workspace × Answer :=
  ({ w with pools := w.pools.insert name ⟨arena, ⟨element, pool, []⟩⟩ },
    .pool pool.capacity pool.slotSize pool.footprintBytes pool.state)

/-- Builds a pool on an arena. -/
def poolOnArena (w : Workspace) (name : String) (element : Element) (capacity : Nat)
    (slotSize : Option Nat) (arena : String) : Workspace × Answer :=
  match w.arena? arena with
  | none => (w, .noArena)
  | some (i, a) =>
    let built := match slotSize with
      | none => Pool.new element.shape capacity a
      | some n => Pool.withSlotSize element.shape capacity n a
    match built with
    | .error e => (w, .poolError e)
    | .ok (p, a) => (w.setArena i a).addPool name i element p

/-- Builds a pool in a region, which is used up in any case. -/
def poolInRegion (w : Workspace) (name : String) (element : Element) (capacity : Nat)
    (slotSize : Option Nat) (region : String) : Workspace × Answer :=
  match w.regions.find? region with
  | none => (w, .noRegion)
  | some h =>
    let w := { w with regions := w.regions.erase region }
    match w.arenas[h.arena]? with
    | none => (w, .noArena)
    | some a =>
      let asked := slotSize.getD element.shape.size
      match Pool.inRegion element.shape capacity asked h.region a.memory with
      | .error e => (w, .poolError e)
      | .ok (p, m) => (w.setArena h.arena { a with memory := m }).addPool name h.arena element p

/-- One operation on a pool. -/
def stepPool (w : Workspace) (name : String) (op : PoolOp) : Workspace × Answer :=
  match w.pools.find? name with
  | none => (w, .noPool)
  | some t =>
    match w.arenas[t.arena]? with
    | none => (w, .noArena)
    | some a =>
      let (site, m, answer) := t.site.step a.base a.memory op
      let w := w.setArena t.arena { a with memory := m }
      ({ w with pools := w.pools.insert name { t with site } }, .onPool answer site.pool.state)

/-- Splits a region into two that take new names, or leaves it. -/
def split (w : Workspace) (region : String) (mid : Nat) (head tail : String) : Workspace × Answer :=
  match w.regions.find? region with
  | none => (w, .noRegion)
  | some h =>
    match h.region.split mid with
    | none => (w, .rejected (w.reportRegion h))
    | some (a, b) =>
      let a : Holding := ⟨h.arena, a⟩
      let b : Holding := ⟨h.arena, b⟩
      let regions := ((w.regions.erase region).insert head a).insert tail b
      ({ w with regions }, .split (w.reportRegion a) (w.reportRegion b))

/-- One operation, on a machine. -/
def step (host : Host) (w : Workspace) : Op → Workspace × Answer
  | .arena name options =>
    match Arena.build host options with
    | .error e => (w, .arenaError e)
    | .ok a =>
      ({ w with
          arenas := w.arenas ++ [a]
          arenaNames := w.arenaNames.insert name w.arenas.length },
        .arena a.report)
  | .arenaInfo name =>
    match w.arena? name with
    | none => (w, .noArena)
    | some (_, a) => (w, .arena a.report)
  | .zeroed name =>
    match w.arena? name with
    | none => (w, .noArena)
    | some (_, a) => (w, .zeroed (a.memory.isZero a.size))
  | .domainOf name offset =>
    match w.arena? name with
    | none => (w, .noArena)
    | some (_, a) => (w, .domain (a.domainOf host offset))
  | .describeArena name =>
    match w.arena? name with
    | none => (w, .noArena)
    | some (_, a) => (w, .text a.describe)
  | .reserve arena bytes name =>
    match w.arena? arena with
    | none => (w, .noArena)
    | some (i, a) =>
      match a.reserve bytes with
      | (a, none) => (w, .reserved none a.reserved a.remaining)
      | (a, some region) =>
        let h : Holding := ⟨i, region⟩
        let w := w.setArena i a
        ({ w with regions := w.regions.insert name h },
          .reserved (some (w.reportRegion h)) a.reserved a.remaining)
  | .describeRegion name =>
    match w.regions.find? name with
    | none => (w, .noRegion)
    | some h => (w, .text h.region.describe)
  | .split region mid head tail => w.split region mid head tail
  | .pool name element capacity slotSize (.arena arena) =>
    w.poolOnArena name element capacity slotSize arena
  | .pool name element capacity slotSize (.region region) =>
    w.poolInRegion name element capacity slotSize region
  | .onPool name op => w.stepPool name op
  | .save pool name =>
    match w.pools.find? pool with
    | none => (w, .noPool)
    | some t =>
      ({ w with snapshots := w.snapshots.insert name t.site.pool.snapshot },
        .snapshot t.site.pool.snapshot)
  | .since pool name =>
    match w.pools.find? pool, w.snapshots.find? name with
    | none, _ => (w, .noPool)
    | some _, none => (w, .noSnapshot)
    | some t, some earlier => (w, .snapshot (t.site.pool.snapshot.since earlier))

/-- Operations one after another, with their answers. -/
def run (host : Host) : Workspace → List Op → Workspace × List Answer
  | w, [] => (w, [])
  | w, op :: ops =>
    let (w, a) := step host w op
    let (w, as) := run host w ops
    (w, a :: as)

end Workspace
end Slab
