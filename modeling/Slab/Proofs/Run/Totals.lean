import Slab.Proofs.Run.Relay
import Slab.Proofs.Settings.Loaded

/-!
# Totals of a run

When all workers are done, what has been recorded agrees with what they report: the counters are
the sums of the reports, and no slot is out.

* `Opened`: what a run starts from, with `opened_of_setUp`;
* `Shift.closing`: what is recorded at the end and what the workers report;
* `Shift.Timely`: no call comes too late to notice that the head has been exchanged;
* `Totals`, `Shift.Books.totals`: the totals of a run;
* `NoneDropped`, `Shift.noneDropped`: a run in which every cycle finds a free slot;
* `totals_run`: **they hold however the workers interleave**.
-/

namespace Slab

theorem Metrics.catchUp_zero (seen : UInt64) : catchUp 0 seen = seen := by
  unfold catchUp
  by_cases h : 0 < seen
  · rw [if_pos h]
    simp
  · rw [if_neg h]
    have hzero : ¬ 0 < seen.toNat := h
    apply UInt64.toNat_inj.mp
    rw [UInt64.toNat_zero]
    omega

namespace Run

/-! ### What a run starts from -/

/-- What a run starts from when nothing has been recorded before. -/
structure Opened (s : Settings) (r : Metrics.Recorder) (p : Pool) (m : Memory) : Prop where
  new : Pool.New p m
  sound : p.slots.Sound
  capacity : p.capacity = s.pool.capacity.toNat
  room : Order.size ≤ p.slotSize
  counters : p.counters = {}
  recorder : r =
    ({} : Metrics.Recorder).setArenaBytes (.ofNat (Size.roundUp pageSize s.arena.sizeBytes.toNat))
  size_lt : Size.roundUp pageSize s.arena.sizeBytes.toNat < Size.limit

theorem opened_of_setUp {host : Host} {s : Settings} {r : Metrics.Recorder} {p : Pool} {a : Arena}
    (h : setUp host s {} = (r, .ok ⟨p, a⟩)) : Opened s r p a.memory := by
  unfold setUp at h
  split at h
  · cases h
  · rename_i a₀ ha
    dsimp only at h
    split at h
    · cases h
    · rename_i p' a' hp
      cases h
      obtain ⟨hsize, hlt⟩ := Size.roundUp?_eq_some_iff.1 (Arena.build_eq_ok ha).1
      rw [buildPool_eq] at hp
      obtain ⟨hbuilt, -⟩ := Pool.built_of_withSlotSize hp
      exact
        { new := .onArena hp
          sound := hbuilt.sound
          capacity := Pool.capacity_of_withSlotSize hp
          room := hbuilt.size_le
          counters := hbuilt.counters_eq
          recorder := by
            rw [← hsize]
            rfl
          size_lt := by
            rw [← hsize] at hlt
            exact hlt }

/-- A run that has been set up. -/
theorem run_eq_of_setUp {host : Host} {s : Settings} {o : Overrides} {r r' : Metrics.Recorder}
    {p : Pool} {a : Arena} (h : setUp host s r = (r', .ok ⟨p, a⟩)) :
    Slab.run host s o r =
      let z := workAll p.slots (iterationCount s o) host.cycleTime (List.range (workerCount s o))
        ⟨p.shared a.memory, r'⟩
      (z.1.recorder.observePool (observation (p.update z.1.shared)), .ok z.2) := by
  rw [Slab.run, h]

/-! ### What a run leaves behind -/

variable {n iterations : ℕ}

/-- A worker that is done has gone through all its cycles and has no slot. -/
theorem Worker.Sound.of_isDone {w : Worker} (h : w.Sound iterations)
    (hdone : w.isDone iterations = true) :
    w.phase = .ready ∧ w.seq = iterations ∧ w.cycles + w.dropped = iterations := by
  simp only [isDone, Bool.and_eq_true, beq_iff_eq, decide_eq_true_eq] at hdone
  obtain ⟨hphase, hle⟩ := hdone
  have htotal := h.total
  have hseq := h.seq_le
  simp only [hphase, reduceCtorEq, if_false] at htotal
  exact ⟨hphase, by omega, by omega⟩

/-- What has been recorded when all workers have been waited for, and what they report. -/
def Shift.closing (p : Pool) (s : Shift n) : Metrics.Recorder × List Report :=
  (s.floor.recorder.observePool (observation (p.update s.floor.shared)),
    List.ofFn fun i => report (s.worker i))

/-- No call comes too late to notice that the head has been exchanged. -/
def Shift.Timely (g : Pool.Slots) (iterations : ℕ) (s : Shift n) (es : List (Fin n × Chance)) :
    Prop :=
  Pool.Crew.Timely g (.start s.floor.shared) (s.asks g iterations es)

/-- The totals of a run: each counter is the sum of what the workers report, as far as a word of 64
bits can count. -/
structure Totals (s : Settings) (o : Overrides) (r : Metrics.Recorder) (reports : List Report) :
    Prop where
  length : reports.length = max (o.threads.getD s.workers.threads).toNat 1
  each : ∀ x ∈ reports, x.cycles + x.dropped = (o.iterations.getD s.workers.iterations).toNat
  acquired : r.acquired.toNat = (reports.map Report.cycles).sum % UInt64.size
  released : r.released.toNat = (reports.map Report.cycles).sum % UInt64.size
  exhausted : r.exhausted.toNat = (reports.map Report.dropped).sum % UInt64.size
  inUse : r.inUse = 0
  capacity : r.capacity = s.pool.capacity
  arenaBytes : r.arenaBytes.toNat = Size.roundUp pageSize s.arena.sizeBytes.toNat

/-- A run in which every cycle found a free slot. -/
structure NoneDropped (s : Settings) (o : Overrides) (r : Metrics.Recorder)
    (reports : List Report) : Prop where
  reports_eq : reports = List.replicate (workerCount s o) ⟨iterationCount s o, 0⟩
  exhausted : r.exhausted = 0
  samples : r.cycles.count.toNat =
    workerCount s o * ((iterationCount s o + (sampleEvery - 1)) / sampleEvery) % UInt64.size

namespace Shift

variable {s : Settings} {o : Overrides} {r : Metrics.Recorder} {p : Pool} {m : Memory}
  {z : Shift n}

theorem sum_reports (f : Report → ℕ) (p : Pool) (z : Shift n) :
    ((z.closing p).2.map f).sum = ∑ i, f (report (z.worker i)) := by
  simp only [closing, List.map_ofFn, List.sum_ofFn, Function.comp_apply]

/-- A counter of the pool that nobody counts any more is the sum of what the workers report. -/
theorem Tallied.toNat_eq {word : Floor → UInt64} {count : Worker → ℕ} (h : z.Tallied word count)
    {f : Report → ℕ} (hf : ∀ i, count (z.worker i) = f (report (z.worker i))) (p : Pool) :
    (word z.floor).toNat = ((z.closing p).2.map f).sum % UInt64.size := by
  rw [h, UInt64.toNat_ofNat', sum_reports]
  simp only [hf]

/-- What has been recorded at the end: the pool as it is, for nothing was recorded of it before. -/
theorem closing_eq (h : z.Books iterations r) (hopen : Opened s r p m) :
    (z.closing p).1 = { z.floor.recorder with
      capacity := .ofNat p.capacity
      inUse := z.floor.shared.counters.inUse
      acquired := z.floor.shared.counters.acquired
      released := z.floor.shared.counters.released
      exhausted := z.floor.shared.counters.exhausted
      contended := z.floor.shared.counters.contended } := by
  have hfresh := h.recorder
  rw [hopen.recorder] at hfresh
  have hacquired : z.floor.recorder.acquired = 0 := congrArg Metrics.Recorder.acquired hfresh
  have hreleased : z.floor.recorder.released = 0 := congrArg Metrics.Recorder.released hfresh
  have hexhausted : z.floor.recorder.exhausted = 0 := congrArg Metrics.Recorder.exhausted hfresh
  have hcontended : z.floor.recorder.contended = 0 := congrArg Metrics.Recorder.contended hfresh
  simp only [closing, Metrics.Recorder.observePool, observation, Pool.snapshot,
    Pool.Counters.snapshot, Pool.update, hacquired, hreleased, hexhausted, hcontended,
    Metrics.catchUp_zero]

/-- The totals when all workers are done. -/
theorem Books.totals {z : Shift (workerCount s o)} (h : z.Books (iterationCount s o) r)
    (hz : z.Complete (iterationCount s o)) (hopen : Opened s r p m) :
    Totals s o (z.closing p).1 (z.closing p).2 := by
  have hdone := fun i => (h.sound i).of_isDone (hz i)
  have htook : ∀ i, (z.worker i).took = (report (z.worker i)).cycles := by
    intro i
    simp [Worker.took, (hdone i).1, report]
  have hgave : ∀ i, (z.worker i).gave = (report (z.worker i)).cycles := by
    intro i
    simp [Worker.gave, (hdone i).1, report]
  have hmissed : ∀ i, (z.worker i).missed = (report (z.worker i)).dropped := by
    intro i
    simp [Worker.missed, (hdone i).1, report]
  have hacquired := h.acquired.toNat_eq htook p
  have hreleased := h.released.toNat_eq hgave p
  have hclosing := closing_eq h hopen
  constructor
  · exact List.length_ofFn
  · intro x hx
    obtain ⟨i, rfl⟩ := List.mem_ofFn.1 hx
    exact (hdone i).2.2
  · rw [hclosing]
    exact hacquired
  · rw [hclosing]
    exact hreleased
  · rw [hclosing]
    exact h.exhausted.toNat_eq hmissed p
  · -- as many slots were given back as were taken
    have heq : z.floor.shared.counters.acquired = z.floor.shared.counters.released :=
      UInt64.toNat_inj.mp (hacquired.trans hreleased.symm)
    rw [hclosing]
    show z.floor.shared.counters.inUse = 0
    rw [Pool.Counters.inUse, heq, Pool.satSub, if_pos UInt64.le_rfl, UInt64.sub_self]
  · rw [hclosing]
    show UInt64.ofNat p.capacity = _
    rw [hopen.capacity, UInt64.ofNat_toNat]
  · rw [hclosing]
    have hbytes := congrArg Metrics.Recorder.arenaBytes h.recorder
    rw [hopen.recorder] at hbytes
    show z.floor.recorder.arenaBytes.toNat = _
    rw [show z.floor.recorder.arenaBytes = _ from hbytes]
    exact UInt64.toNat_ofNat_of_lt' hopen.size_lt

/-- Where nobody ever found the pool empty, no cycle was dropped. -/
theorem noneDropped {z : Shift (workerCount s o)} {c : Pool.Crew (Fin (workerCount s o))}
    (h : Supplied p.slots (iterationCount s o) z c) (hbooks : z.Books (iterationCount s o) r)
    (hz : z.Complete (iterationCount s o)) (hopen : Opened s r p m) :
    NoneDropped s o (z.closing p).1 (z.closing p).2 := by
  have hdone := fun i => (h.sound i).of_isDone (hz i)
  have hclosing := closing_eq hbooks hopen
  have hreport : ∀ i, report (z.worker i) = ⟨iterationCount s o, 0⟩ := by
    intro i
    have htotal := (hdone i).2.2
    have hnone := (h.served i).dropped
    rw [hnone, Nat.add_zero] at htotal
    rw [report, htotal, hnone]
  constructor
  · simp only [closing, hreport, List.ofFn_const]
  · have hmissed : ∀ i, (z.worker i).missed = 0 := by
      intro i
      simp [Worker.missed, (hdone i).1, (h.served i).dropped]
    have hexhausted := hbooks.exhausted
    simp only [Tallied, hmissed, Finset.sum_const_zero] at hexhausted
    rw [hclosing]
    exact hexhausted
  · have hsamples := h.samples
    simp only [Tallied, Worker.samples, (hdone _).2.1, Finset.sum_const, Finset.card_univ,
      Fintype.card_fin, smul_eq_mul] at hsamples
    rw [hclosing]
    show z.floor.recorder.cycles.count.toNat = _
    rw [hsamples, UInt64.toNat_ofNat']

end Shift

/-- The run in which one worker goes after another is one of the ways in which they interleave. -/
theorem run_eq_closing {host : Host} {s : Settings} {o : Overrides} {r r' : Metrics.Recorder}
    {p : Pool} {a : Arena} (hready : setUp host s r = (r', .ok ⟨p, a⟩)) :
    let k := iterationCount s o
    let start : Shift (workerCount s o) := .opening _ ⟨p.shared a.memory, r'⟩
    let z := start.run p.slots k (Shift.relay p.slots k host.cycleTime (List.finRange _) start)
    z.Complete k ∧ run host s o r = ((z.closing p).1, .ok (z.closing p).2) := by
  intro k start z
  have hnodup := List.nodup_finRange (workerCount s o)
  have hidle : ∀ t ∈ List.finRange (workerCount s o), start.worker t = { index := t } :=
    fun _ _ => rfl
  have hwork : workAll p.slots k host.cycleTime ((List.finRange _).map Fin.val) start.floor = _ :=
    Shift.workAll_eq hnodup hidle
  rw [List.map_coe_finRange_eq_range] at hwork
  refine ⟨fun i => Shift.isDone_relay hnodup hidle (List.mem_finRange i), ?_⟩
  rw [run_eq_of_setUp hready, show (⟨p.shared a.memory, r'⟩ : Floor) = start.floor from rfl,
    hwork, Shift.closing, List.ofFn_eq_map]

/-- **However the workers interleave, the totals of a run agree with its reports**, and in a pool
that has a slot for every worker no cycle is dropped. The run in which one worker goes after another
is one of the ways. -/
theorem totals_run {host : Host} {s : Settings} {o : Overrides} {r : Metrics.Recorder} {p : Pool}
    {a : Arena} (hready : setUp host s {} = (r, .ok ⟨p, a⟩)) :
    let k := iterationCount s o
    let start : Shift (workerCount s o) := .opening _ ⟨p.shared a.memory, r⟩
    (∀ es, (start.run p.slots k es).Complete k →
      Totals s o ((start.run p.slots k es).closing p).1 ((start.run p.slots k es).closing p).2 ∧
      (workerCount s o ≤ s.pool.capacity.toNat → start.Timely p.slots k es →
        NoneDropped s o ((start.run p.slots k es).closing p).1
          ((start.run p.slots k es).closing p).2)) ∧
    ∃ es, (start.run p.slots k es).Complete k ∧ start.Timely p.slots k es ∧
      run host s o {} =
        (((start.run p.slots k es).closing p).1, .ok ((start.run p.slots k es).closing p).2) := by
  intro k start
  have hopen := opened_of_setUp hready
  have hbooks : start.Books k r :=
    Shift.books_opening (f := ⟨p.shared a.memory, r⟩) hopen.counters k
  constructor
  · intro es hz
    refine ⟨(hbooks.run p.slots es).totals hz hopen, fun hle ht => ?_⟩
    have hcount : r.cycles.count = 0 := by
      rw [hopen.recorder]
      rfl
    have hsupplied := (supplied_opening hopen.new hcount (workerCount s o) k).run hopen.sound
      hopen.room (hle.trans_eq hopen.capacity.symm) ht
    exact Shift.noneDropped hsupplied (hbooks.run p.slots es) hz hopen
  · obtain ⟨hcomplete, hrun⟩ := run_eq_closing (o := o) hready
    refine ⟨_, hcomplete, ?_, hrun⟩
    exact Shift.timely_relay (List.nodup_finRange (workerCount s o)) fun _ _ => rfl

/-- Settings for two workers that share two slots. -/
def narrow : Settings where
  arena := { sizeBytes := 4000 }
  pool := { capacity := 2 }
  workers := { threads := 2, iterations := 2 }

/-- The pool that these settings ask for. -/
def narrowPool : Pool where
  shape := Element.order.shape
  region := ⟨0x7F0000000000, 0, 128⟩
  capacity := 2
  slotSize := 64
  head := ⟨0, 0⟩
  counters := {}

/-- The arena that these settings ask for, with the pool built on it. -/
def narrowArena : Arena where
  base := 0x7F0000000000
  size := 4096
  domain := 0
  hugePages := true
  bound := true
  cursor := 128
  memory := Pool.linkSlots narrowPool.slots .zero

/-- The two workers step by step in turn, so that the first one spoils an exchange of the second. -/
def turns : List (Fin 2 × Chance) := (List.range 58).map fun i => (if i % 2 = 0 then 0 else 1, {})

/-- The two workers after these steps. -/
def inTurn : Shift 2 :=
  Shift.run narrowPool.slots 2
    (.opening 2 ⟨narrowPool.shared narrowArena.memory, ({} : Metrics.Recorder).setArenaBytes 4096⟩)
    turns

theorem totals_run_in_turn :
    inTurn.floor.shared.counters.contended = 1 ∧
      Totals narrow {} (inTurn.closing narrowPool).1 (inTurn.closing narrowPool).2 ∧
      NoneDropped narrow {} (inTurn.closing narrowPool).1 (inTurn.closing narrowPool).2 := by
  have hready : setUp .reference narrow {} =
      (({} : Metrics.Recorder).setArenaBytes 4096, .ok ⟨narrowPool, narrowArena⟩) := rfl
  have hcomplete : inTurn.Complete 2 := by decide +kernel
  obtain ⟨hall, -⟩ := totals_run (o := {}) hready
  obtain ⟨htotals, hserved⟩ := hall turns hcomplete
  exact ⟨by decide +kernel, htotals,
    hserved (by decide) (Pool.Crew.timely_of_lt (by decide +kernel))⟩

end Run
end Slab
