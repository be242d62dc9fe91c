import Mathlib.Data.List.Induction
import Mathlib.Order.Bounds.Basic
import Slab.Metrics.Recorder

/-!
# What a recorder remembers

A recorder is told the size of the arena, states of the pool and times of cycles, in any order and
with any numbers. Its totals keep the largest totals that it was told, its gauges the last values.

* `Entry`, `Recorder.record`, `Recorder.run`: what a recorder can be told, once and many times;
* `Entry.seen?`, `Entry.set?`, `Entry.time?`: what an entry says about a total, a gauge and the
  times of cycles;
* `Remembers`: what is promised of a recorder that was told some entries;
* `remembers_run`: **it holds of every new recorder, whatever it was told**.
-/

namespace Slab.Metrics

/-- What a state of a pool says about a total. -/
def Observation.total (o : Observation) : Total → UInt64
  | .acquired => o.acquired
  | .released => o.released
  | .exhausted => o.exhausted
  | .contended => o.contended

/-- What a recorder can be told. -/
inductive Entry
  | arena (bytes : UInt64)
  | pool (o : Observation)
  | cycle (ns : UInt64)
  deriving DecidableEq, Repr

namespace Entry

/-- The total that an entry tells. -/
def seen? (c : Total) : Entry → Option UInt64
  | pool o => some (o.total c)
  | _ => none

/-- The word that an entry sets a gauge to. -/
def set? : Gauge → Entry → Option UInt64
  | .arenaBytes, arena bytes => some bytes
  | .capacity, pool o => some o.capacity
  | .inUse, pool o => some o.inUse
  | _, _ => none

/-- The time of the cycle that an entry tells. -/
def time? : Entry → Option UInt64
  | cycle ns => some ns
  | _ => none

end Entry

namespace Recorder

/-- One entry. -/
def record (r : Recorder) : Entry → Recorder
  | .arena bytes => r.setArenaBytes bytes
  | .pool o => r.observePool o
  | .cycle ns => r.observeCycle ns

/-- Entries one after another. -/
def run (r : Recorder) (l : List Entry) : Recorder := l.foldl record r

variable (r : Recorder) (l l' : List Entry) (e : Entry)

@[simp] theorem run_nil : r.run [] = r := rfl

theorem run_append : r.run (l ++ l') = (r.run l).run l' := List.foldl_append

theorem run_concat : r.run (l ++ [e]) = (r.run l).record e := by
  rw [run_append]
  rfl

end Recorder

/-! ### One entry -/

/-- A total rises to a larger one that is seen. -/
theorem toNat_catchUp (total seen : UInt64) :
    (catchUp total seen).toNat = max total.toNat seen.toNat := by
  unfold catchUp
  split_ifs with h
  · have hlt : total.toNat < seen.toNat := h
    have hsum := seen.toNat_lt
    rw [UInt64.toNat_add, UInt64.toNat_sub_of_le _ _ (Nat.le_of_lt h)]
    omega
  · have hle : seen.toNat ≤ total.toNat := Nat.le_of_not_lt h
    omega

/-- The growth of a total leads no further than the total that is seen. -/
theorem toNat_add_growth {total seen : UInt64} (h : total < seen) :
    total.toNat + (seen - total).toNat = seen.toNat := by
  have hlt : total.toNat < seen.toNat := h
  rw [UInt64.toNat_sub_of_le _ _ (Nat.le_of_lt h)]
  omega

namespace Recorder

variable (r : Recorder) (e : Entry)

theorem total_record (c : Total) :
    (r.record e).total c = match e.seen? c with
      | some seen => catchUp (r.total c) seen
      | none => r.total c := by
  cases e <;> cases c <;> rfl

theorem word_record (g : Gauge) : (r.record e).word g = (e.set? g).getD (r.word g) := by
  cases e <;> cases g <;> rfl

theorem cycles_record :
    (r.record e).cycles = match e.time? with
      | some ns => r.cycles.observe (Binary64.ofNat ns.toNat)
      | none => r.cycles := by
  cases e <;> rfl

/-- A total never falls. -/
theorem total_le_total_record (c : Total) : r.total c ≤ (r.record e).total c := by
  rw [total_record]
  cases e.seen? c with
  | none => exact UInt64.le_refl _
  | some seen =>
    rw [UInt64.le_iff_toNat_le, toNat_catchUp]
    exact Nat.le_max_left _ _

/-- Telling the same state of the pool again changes nothing. -/
theorem observePool_again (o : Observation) :
    (r.observePool o).observePool o = r.observePool o := by
  have hcatch : ∀ total seen, catchUp (catchUp total seen) seen = catchUp total seen := by
    intro total seen
    apply UInt64.toNat_inj.1
    rw [toNat_catchUp, toNat_catchUp]
    omega
  simp only [observePool, hcatch]

end Recorder

/-! ### All entries -/

/-- The number that a word of 64 bits writes in two's complement. -/
def signed (w : UInt64) : ℤ :=
  if w.toNat < Nat.pow 2 63 then w.toNat else (w.toNat : ℤ) - UInt64.size

theorem gauge_eq_signed (w : UInt64) : gauge w = signed w := by
  have htwo : 2 * w.toBitVec.toNat < 2 ^ 64 ↔ w.toNat < Nat.pow 2 63 := by
    show 2 * w.toNat < 18446744073709551616 ↔ w.toNat < 9223372036854775808
    omega
  show w.toBitVec.toInt = signed w
  rw [BitVec.toInt_eq_toNat_cond]
  simp only [htwo]
  rfl

/-- What is promised of a new recorder that was told some entries. -/
structure Remembers (l : List Entry) : Prop where
  /-- A total is the largest one that it was told, or 0. -/
  total : ∀ c, IsGreatest (insert 0 {n | ∃ seen ∈ l.filterMap (Entry.seen? c), n = seen.toNat})
    ((Recorder.run {} l).total c).toNat
  /-- Totals never fall. -/
  rises : ∀ c l', (Recorder.run {} l).total c ≤ (Recorder.run {} (l ++ l')).total c
  /-- What is added to a total stays within the word. -/
  fits : ∀ c seen, (Recorder.run {} l).total c < seen →
    ((Recorder.run {} l).total c).toNat + (seen - (Recorder.run {} l).total c).toNat < UInt64.size
  /-- A gauge shows the last value that it was set to, or 0. -/
  gauge : ∀ g, gauge ((Recorder.run {} l).word g) =
    signed ((l.filterMap (Entry.set? g)).getLast?.getD 0)
  /-- The same state of the pool, told twice, counts once. -/
  again : ∀ o, Recorder.run {} (l ++ [.pool o, .pool o]) = Recorder.run {} (l ++ [.pool o])
  /-- An entry changes no total, no gauge and no times that it says nothing about. -/
  others : ∀ e,
    (∀ c, e.seen? c = none →
      (Recorder.run {} (l ++ [e])).total c = (Recorder.run {} l).total c) ∧
    (∀ g, e.set? g = none → (Recorder.run {} (l ++ [e])).word g = (Recorder.run {} l).word g) ∧
    (e.time? = none → (Recorder.run {} (l ++ [e])).cycles = (Recorder.run {} l).cycles)

section

variable (l : List Entry)

/-- A total is the largest one that was told. -/
theorem isGreatest_total (c : Total) :
    IsGreatest (insert 0 {n | ∃ seen ∈ l.filterMap (Entry.seen? c), n = seen.toNat})
      ((Recorder.run {} l).total c).toNat := by
  induction l using List.reverseRecOn with
  | nil => cases c <;> simp [Recorder.total]
  | append_singleton l e ih =>
    rw [Recorder.run_concat, Recorder.total_record, List.filterMap_append]
    cases h : e.seen? c with
    | none => simpa [h] using ih
    | some seen =>
      rw [toNat_catchUp]
      have hset : insert 0 {n | ∃ s ∈ l.filterMap (Entry.seen? c) ++ [e].filterMap (Entry.seen? c),
          n = s.toNat} =
          insert seen.toNat (insert 0 {n | ∃ s ∈ l.filterMap (Entry.seen? c), n = s.toNat}) := by
        ext n
        simp only [List.filterMap_cons, h, List.filterMap_nil, List.mem_append, List.mem_singleton,
          Set.mem_insert_iff, Set.mem_ofPred_eq]
        grind
      rw [hset, Nat.max_comm]
      exact ih.insert _

/-- A gauge holds the word that it was last set to. -/
theorem word_run (g : Gauge) :
    (Recorder.run {} l).word g = (l.filterMap (Entry.set? g)).getLast?.getD 0 := by
  induction l using List.reverseRecOn with
  | nil => cases g <;> rfl
  | append_singleton l e ih =>
    rw [Recorder.run_concat, Recorder.word_record, List.filterMap_append, ih]
    cases h : e.set? g with
    | none => simp [h]
    | some w => simp [h]

/-- Totals never fall along a run. -/
theorem total_le_total_run (r : Recorder) (c : Total) : r.total c ≤ (r.run l).total c := by
  induction l generalizing r with
  | nil => exact UInt64.le_refl _
  | cons e l ih => exact UInt64.le_trans (r.total_le_total_record e c) (ih (r.record e))

/-- **A new recorder keeps the largest totals and the last values that it is told.** -/
theorem remembers_run : Remembers l where
  total := isGreatest_total l
  rises c l' := by
    rw [Recorder.run_append]
    exact total_le_total_run l' _ c
  fits c seen h := by
    rw [toNat_add_growth h]
    exact seen.toNat_lt
  gauge g := by rw [gauge_eq_signed, word_run]
  again o := by
    have hpair : l ++ [.pool o, .pool o] = (l ++ [.pool o]) ++ [.pool o] := by simp
    rw [hpair, Recorder.run_concat, Recorder.run_concat]
    exact Recorder.observePool_again _ o
  others e := by
    rw [Recorder.run_concat]
    refine ⟨fun c h => ?_, fun g h => ?_, fun h => ?_⟩
    · rw [Recorder.total_record, h]
    · rw [Recorder.word_record, h]
      rfl
    · rw [Recorder.cycles_record, h]

end

end Slab.Metrics
