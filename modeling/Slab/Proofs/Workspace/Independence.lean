import Slab.Proofs.Workspace.Plan

/-!
# Pools do not notice each other

Pools that share the memory of an arena answer as if each had it for itself: what the user of a pool
is told does not change when all operations on the other pools are left out.

* `Op.target`: the pool that an operation is about or builds;
* `Standing`, `Workspace.Shows`: what a pool was built as and the ledger of its user, and that a
  workspace has that pool;
* `Workspace.Alike`: two workspaces with the same plan whose pools of one name have the same
  standing;
* `Workspace.alone`, `Workspace.heard`: the operations without those on other pools, and the answers
  to operations on one pool;
* `Workspace.heard_run`: **the answers are the same**.

An operation elsewhere leaves the standing of a pool alone (`Shows.elsewhere`), because it changes
no byte of its region; one on the pool itself gives an answer that depends on its standing
(`Shows.onPool`).
-/

namespace Slab

/-- The pool that an operation is about or builds. -/
def Op.target : Op → Option String
  | .pool name _ _ _ _ => some name
  | op => op.user

/-- What is known of a pool: its arena, what it was built as, and the ledger of its user. -/
structure Standing where
  arena : ℕ
  built : Site
  ledger : Ledger

namespace Workspace

variable {host : Host} {w w' : Workspace} {r r' : Record} {op : Op} {name : String}

/-- The pool of a name has this standing, or there is none. -/
inductive Shows (w : Workspace) (name : String) : Option Standing → Prop
  | absent (hpool : w.pools.find? name = none) : Shows w name none
  | present {i : ℕ} {s₀ s : Site} {l : Ledger} {a : Arena}
      (hpool : w.pools.find? name = some ⟨i, s⟩) (harena : w.arenas[i]? = some a)
      (hmirrors : s₀.Mirrors s a.memory l) : Shows w name (some ⟨i, s₀, l⟩)

theorem Shows.congr {v : Option Standing} (h : Shows w name v) (hpools : w'.pools = w.pools)
    (harenas : w'.arenas = w.arenas) : Shows w' name v := by
  cases h with
  | absent hpool => exact .absent (hpools ▸ hpool)
  | present hpool harena hmirrors =>
    exact .present (hpools ▸ hpool) (harenas ▸ harena) hmirrors

/-! ### Operations elsewhere -/

/-- An operation elsewhere neither replaces the pool nor adds one of its name. -/
theorem find?_step (host : Host) (h : op.target ≠ some name) :
    (w.step host op).1.pools.find? name = w.pools.find? name := by
  have hinsert : ∀ {n t}, n ≠ name → (w.pools.insert n t).find? name = w.pools.find? name := by
    intro n t hn
    rw [Dict.find?_insert, if_neg (Ne.symm hn)]
  cases op with
  | onPool n op =>
    have hn : n ≠ name := fun he => h (congrArg some he)
    simp only [step, stepPool]
    cases w.pools.find? n with
    | none => rfl
    | some t =>
      cases ha : w.arenas[t.arena]? with
      | none => simp only [ha]
      | some a =>
        simp only [ha]
        exact hinsert hn
  | pool n element capacity slotSize ground =>
    have hn : n ≠ name := fun he => h (congrArg some he)
    cases raised_step (w := w) host n element capacity slotSize ground with
    | refused _ _ hpools => rw [hpools]
    | built _ hpools =>
      rw [hpools]
      exact hinsert hn
  | arena n options =>
    simp only [step]
    cases Arena.build host options <;> rfl
  | reserve arena bytes n =>
    simp only [step]
    cases w.arena? arena with
    | none => rfl
    | some e =>
      obtain ⟨i, a⟩ := e
      rcases hres : a.reserve bytes with ⟨a', none | region⟩
      · simp only [hres]
      · simp only [hres]
        rfl
  | split region mid head tail =>
    simp only [step, Workspace.split]
    cases w.regions.find? region with
    | none => rfl
    | some g => rcases hs : g.region.split mid with _ | ⟨r₁, r₂⟩ <;> simp only [hs]
  | arenaInfo n | zeroed n | describeArena n | domainOf n offset =>
    simp only [step]
    cases w.arena? n <;> rfl
  | describeRegion n =>
    simp only [step]
    cases w.regions.find? n <;> rfl
  | save n snapshot =>
    simp only [step]
    cases w.pools.find? n <;> rfl
  | since n snapshot =>
    simp only [step]
    cases w.pools.find? n <;> cases w.snapshots.find? snapshot <;> rfl

/-- The bytes that an operation elsewhere may change are not those of the pool. -/
theorem MayChange.outside (h : Inv w r) (h' : Inv w' r') {answer : Answer} {t : Tenant} {b : ℕ}
    (hmay : MayChange w w' r t.arena b op answer) (hop : op.target ≠ some name)
    (ht : w.pools.find? name = some t) (ht' : w'.pools.find? name = some t) :
    b < t.site.pool.region.offset ∨
      t.site.pool.region.offset + t.site.pool.region.length ≤ b := by
  cases hmay with
  | build hu harena hbyte =>
    -- the new pool has a region of its own
    have hn : Owner.pool _ ≠ Owner.pool name := fun he => hop (congrArg some (Owner.pool.inj he))
    have hapart := h'.tiled.apart _ _ _ _ hn (own_of_pool hu) (own_of_pool ht') harena
    simp only [Region.Apart] at hapart
    omega
  | link hu harena hslot hbyte =>
    have hn : Owner.pool _ ≠ Owner.pool name := fun he => hop (congrArg some (Owner.pool.inj he))
    have hapart := h.tiled.apart _ _ _ _ hn (own_of_pool hu) (own_of_pool ht) harena
    obtain ⟨a, -, -, -, hkept⟩ := h.pool hu
    have hin := hkept.bounds hslot hbyte
    simp only [Region.Apart] at hapart
    omega
  | write hu harena hslot hheld hbyte =>
    have hn : Owner.pool _ ≠ Owner.pool name := fun he => hop (congrArg some (Owner.pool.inj he))
    have hapart := h.tiled.apart _ _ _ _ hn (own_of_pool hu) (own_of_pool ht) harena
    obtain ⟨a, -, -, -, hkept⟩ := h.pool hu
    obtain ⟨l, hl, -⟩ := hkept.mirrors
    have hin := hkept.slot_bounds hslot
    have hsize := hl.size_le
    simp only [Region.Apart] at hapart
    omega

/-- **An operation elsewhere leaves the standing of a pool alone.** -/
theorem Shows.elsewhere (hhost : host.PageAligned) (h : Inv w r) (hop : op.target ≠ some name)
    {v : Option Standing} (hv : Shows w name v) : Shows (w.step host op).1 name v := by
  have hfollows := follows_step hhost h op
  cases hv with
  | absent hpool => exact .absent ((find?_step host hop).trans hpool)
  | @present i s₀ s l a hpool harena hmirrors =>
    have hpool' := (find?_step host hop).trans hpool
    obtain ⟨a', harena', -⟩ := hfollows.inv.pool hpool'
    obtain ⟨_, -, -, -, hkept⟩ := h.pool hpool
    refine .present hpool' harena' (hmirrors.congr fun k hk b hb => ?_)
    rw [← hmirrors.slots_eq] at hb
    have hin := hkept.bounds (hmirrors.capacity_eq ▸ hk) hb
    by_contra hne
    have hlt : i < w.arenas.length := (List.getElem?_eq_some_iff.1 harena).1
    have hbyte : (w.step host op).1.byte? i b ≠ w.byte? i b := by
      simpa [byte?, harena, harena'] using hne
    have hmay := hfollows.bytes i b hlt hbyte
    have hout := hmay.outside (t := ⟨i, s⟩) h hfollows.inv hop hpool hpool'
    omega

/-! ### Operations on the pool -/

/-- Operations on pools give answers that depend on the standing of the pool. -/
theorem Shows.onPool (host : Host) {i : ℕ} {s₀ : Site} {l : Ledger}
    (hv : Shows w name (some ⟨i, s₀, l⟩)) {a : Arena} (ha : w.arenas[i]? = some a) (op : PoolOp) :
    (w.step host (.onPool name op)).2 = .onPool (l.step s₀ a.base op).2
        { s₀.pool with counters := (l.step s₀ a.base op).1.counters }.state ∧
      Shows (w.step host (.onPool name op)).1 name (some ⟨i, s₀, (l.step s₀ a.base op).1⟩) := by
  cases hv with
  | present hpool harena hmirrors =>
    rw [harena] at ha
    cases ha
    obtain ⟨s', m', hstep, hmirrors', -⟩ := hmirrors.step a.base op
    simp only [step, stepPool, hpool, harena, hstep]
    refine ⟨congrArg _ ?_, .present (s := s') (a := { a with memory := m' }) ?_ ?_ hmirrors'⟩
    · show { s'.pool.original with counters := s'.pool.counters }.state =
        { s₀.pool.original with counters := (l.step s₀ a.base op).1.counters }.state
      rw [hmirrors'.original_eq, hmirrors'.counters_eq]
    · rw [Dict.find?_insert, if_pos rfl]
    · exact List.getElem?_set_self (List.getElem?_eq_some_iff.1 harena).1

theorem Shows.save (host : Host) {v : Option Standing} (hv : Shows w name v) (snapshot : String) :
    (w.step host (.save name snapshot)).2 =
        v.elim .noPool (fun u => .snapshot u.ledger.counters.snapshot) ∧
      Shows (w.step host (.save name snapshot)).1 name v := by
  cases hv with
  | absent hpool =>
    simp only [step, hpool]
    exact ⟨rfl, .absent hpool⟩
  | present hpool harena hmirrors =>
    simp only [step, hpool, Pool.snapshot, hmirrors.counters_eq]
    exact ⟨rfl, .present hpool harena hmirrors⟩

/-! ### Two workspaces -/

/-- Two workspaces with the same plan and with the same pool under a name. -/
structure Alike (name : String) (w w' : Workspace) : Prop where
  plan_eq : w.plan = w'.plan
  shows : ∃ v, Shows w name v ∧ Shows w' name v

namespace Alike

/-- An operation elsewhere in both workspaces. -/
theorem elsewhere (hhost : host.PageAligned) (h : Inv w r) (h' : Inv w' r')
    (ha : Alike name w w') (huser : op.user = none) (hop : op.target ≠ some name) :
    Alike name (w.step host op).1 (w'.step host op).1 := by
  obtain ⟨v, hv, hv'⟩ := ha.shows
  exact ⟨plan_step_congr host huser ha.plan_eq, v, hv.elsewhere hhost h hop,
    hv'.elsewhere hhost h' hop⟩

/-- An operation on another pool in one of the workspaces. -/
theorem other (hhost : host.PageAligned) (h : Inv w r) (ha : Alike name w w') {n : String}
    (huser : op.user = some n) (hn : n ≠ name) : Alike name (w.step host op).1 w' := by
  have hop : op.target ≠ some name := by
    cases op <;> cases huser <;> exact fun he => hn (Option.some.inj he)
  obtain ⟨v, hv, hv'⟩ := ha.shows
  exact ⟨(plan_of_user huser).trans ha.plan_eq, v, hv.elsewhere hhost h hop, hv'⟩

/-- A pool of the name is asked for in both workspaces. -/
theorem pool (ha : Alike name w w') (element : Element) (capacity : ℕ) (slotSize : Option ℕ)
    (ground : Ground) :
    Alike name (w.step host (.pool name element capacity slotSize ground)).1
      (w'.step host (.pool name element capacity slotSize ground)).1 := by
  refine ⟨plan_step_congr host rfl ha.plan_eq, ?_⟩
  obtain ⟨v, hv, hv'⟩ := ha.shows
  have hraised := raised_step (w := w) host name element capacity slotSize ground
  have hraised' := raised_step (w := w') host name element capacity slotSize ground
  rw [← ha.plan_eq] at hraised'
  cases hraised with
  | refused hplan harenas hpools hnone =>
    cases hraised' with
    | refused hplan' harenas' hpools' hnone' =>
      exact ⟨v, hv.congr hpools harenas, hv'.congr hpools' harenas'⟩
    | built hplan' hpools' hsome' => simp [hnone] at hsome'
  | built hplan hpools hsome harena hmirrors =>
    rename_i t a
    cases hraised' with
    | refused hplan' harenas' hpools' hnone' => simp [hnone'] at hsome
    | built hplan' hpools' hsome' harena' hmirrors' =>
      rename_i t' a'
      obtain rfl : t = t' := by simpa [hsome] using hsome'
      have hfind : ∀ pools : Dict String Tenant, (pools.insert name t).find? name = some t := by
        intro pools
        rw [Dict.find?_insert, if_pos rfl]
      exact ⟨some ⟨t.arena, t.site, .new t.site.pool.capacity⟩,
        .present (hpools ▸ hfind _) harena hmirrors, .present (hpools' ▸ hfind _) harena' hmirrors'⟩

/-- The pool lies in arenas that start at the same address. -/
theorem base_eq (ha : Alike name w w') {u : Standing} (hv : Shows w name (some u)) :
    ∃ a a', w.arenas[u.arena]? = some a ∧ w'.arenas[u.arena]? = some a' ∧ a'.base = a.base := by
  cases hv with
  | present hpool harena hmirrors =>
    have hblank := getElem?_plan harena
    rw [ha.plan_eq] at hblank
    obtain ⟨a', ha', he⟩ := Option.map_eq_some_iff.1 ((List.getElem?_map ..).symm.trans hblank)
    have hbase : a'.blank.base = _ := congrArg Arena.base he
    exact ⟨_, a', harena, ha', hbase⟩

/-- An operation on the pool in both workspaces. -/
theorem user (host : Host) (ha : Alike name w w') (huser : op.user = some name) :
    (w.step host op).2 = (w'.step host op).2 ∧
      Alike name (w.step host op).1 (w'.step host op).1 := by
  obtain ⟨v, hv, hv'⟩ := ha.shows
  have hplan : (w.step host op).1.plan = (w'.step host op).1.plan := by
    rw [plan_of_user huser, plan_of_user huser, ha.plan_eq]
  cases op with
  | onPool n op =>
    obtain rfl := Option.some.inj huser
    cases v with
    | none =>
      cases hv with
      | absent hpool =>
        cases hv' with
        | absent hpool' =>
          simp only [step, stepPool, hpool, hpool']
          exact ⟨trivial, ha⟩
    | some u =>
      obtain ⟨i, s₀, l⟩ := u
      obtain ⟨a, a', harena, harena', hbase⟩ := ha.base_eq hv
      obtain ⟨hanswer, hs⟩ := hv.onPool host harena op
      obtain ⟨hanswer', hs'⟩ := hv'.onPool host harena' op
      rw [hbase] at hanswer' hs'
      exact ⟨hanswer.trans hanswer'.symm, hplan, _, hs, hs'⟩
  | save n snapshot =>
    obtain rfl := Option.some.inj huser
    obtain ⟨hanswer, hs⟩ := hv.save host snapshot
    obtain ⟨hanswer', hs'⟩ := hv'.save host snapshot
    exact ⟨hanswer.trans hanswer'.symm, hplan, v, hs, hs'⟩
  | _ => cases huser

/-- An operation on no pool in both workspaces. -/
theorem unused (hhost : host.PageAligned) (h : Inv w r) (h' : Inv w' r') (ha : Alike name w w')
    (huser : op.user = none) : Alike name (w.step host op).1 (w'.step host op).1 := by
  by_cases hop : op.target = some name
  · cases op with
    | pool n element capacity slotSize ground =>
      obtain rfl := Option.some.inj hop
      exact ha.pool element capacity slotSize ground
    | _ => exact absurd (huser.symm.trans hop) (by simp)
  · exact ha.elsewhere hhost h h' huser hop

end Alike

/-! ### Runs -/

/-- The operations without those on other pools. -/
def alone (name : String) (ops : List Op) : List Op :=
  ops.filter fun op => op.user = none ∨ op.user = some name

/-- The answers to the operations on a pool. -/
def heard (name : String) (ops : List Op) (answers : List Answer) : List Answer :=
  (ops.zip answers).filterMap fun e => if e.1.user = some name then some e.2 else none

theorem heard_cons (name : String) (op : Op) (answer : Answer) (ops : List Op)
    (answers : List Answer) :
    heard name (op :: ops) (answer :: answers) =
      if op.user = some name then answer :: heard name ops answers
      else heard name ops answers := by
  unfold heard
  by_cases h : op.user = some name <;> simp [h]

theorem heard_run_of_alike (hhost : host.PageAligned) (h : Inv w r) (h' : Inv w' r')
    (ha : Alike name w w') (ops : List Op) :
    heard name ops (run host w ops).2 =
      heard name (alone name ops) (run host w' (alone name ops)).2 := by
  induction ops generalizing w w' r r' with
  | nil => rfl
  | cons op ops ih =>
    have hinv := (follows_step hhost h op).inv
    have hinv' := (follows_step hhost h' op).inv
    show heard name (op :: ops) ((w.step host op).2 :: (run host (w.step host op).1 ops).2) = _
    rw [heard_cons]
    cases huser : op.user with
    | none =>
      have hstep : alone name (op :: ops) = op :: alone name ops := by simp [alone, huser]
      rw [hstep]
      show _ = heard name (op :: alone name ops)
        ((w'.step host op).2 :: (run host (w'.step host op).1 (alone name ops)).2)
      rw [heard_cons, huser, if_neg (by simp), if_neg (by simp)]
      exact ih hinv hinv' (ha.unused hhost h h' huser)
    | some n =>
      by_cases hn : n = name
      · subst hn
        have hstep : alone n (op :: ops) = op :: alone n ops := by simp [alone, huser]
        obtain ⟨hanswer, hnext⟩ := ha.user host huser
        rw [hstep]
        show _ = heard n (op :: alone n ops)
          ((w'.step host op).2 :: (run host (w'.step host op).1 (alone n ops)).2)
        rw [heard_cons, huser, if_pos rfl, if_pos rfl, hanswer, ih hinv hinv' hnext]
      · -- left out on one side
        have hstep : alone name (op :: ops) = alone name ops := by simp [alone, huser, hn]
        rw [hstep, if_neg (by simpa using hn)]
        exact ih hinv h' (ha.other hhost h huser hn)

/-- **Pools do not notice each other**: whoever uses a pool is told the same when all operations on
the other pools are left out. -/
theorem heard_run (hhost : host.PageAligned) (name : String) (ops : List Op) :
    heard name ops (run host {} ops).2 =
      heard name (alone name ops) (run host {} (alone name ops)).2 :=
  heard_run_of_alike hhost inv_empty inv_empty ⟨rfl, none, .absent rfl, .absent rfl⟩ ops

/-- One of two neighbours takes both slots and gives one back; the other one writes and takes its
slot again. The first is told what it would be told alone. -/
theorem heard_neighbours :
    Host.reference.PageAligned ∧
      (alone "p" neighbours).length + 4 = neighbours.length ∧
      heard "p" neighbours (run Host.reference {} neighbours).2 =
        [.onPool (.placed ⟨0, 0, true⟩) ⟨1, 0, 0, 1, 1⟩,
          .onPool (.placed ⟨1, 64, true⟩) ⟨2, 0, 0, 2, 0⟩,
          .onPool (.released 1) ⟨2, 1, 0, 1, 1⟩] ∧
      heard "p" neighbours (run Host.reference {} neighbours).2 =
        heard "p" (alone "p" neighbours)
          (run Host.reference {} (alone "p" neighbours)).2 :=
  ⟨pageAligned_reference, by decide, by decide +kernel,
    heard_run pageAligned_reference "p" neighbours⟩

end Workspace
end Slab
