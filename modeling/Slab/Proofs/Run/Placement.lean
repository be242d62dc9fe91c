import Mathlib.Algebra.Order.Floor.Div
import Mathlib.Data.Int.CardIntervalMod
import Slab.Run.Basic

/-!
# Workers and processors

The workers of a run are bound to the listed processors in turn, so no place in the list gets more
than one worker more than another one, and no processor gets a second worker before all of them
have one.

* `Settings.Workers.turn`, `Settings.Workers.share`: the place in the list from which a worker takes
  its processor, and how many of the first workers take theirs from a place;
* `Settings.Workers.InTurn`: what is promised of a list of processors, with
  `Settings.Workers.inTurn`;
* `Run.Balanced`, `Run.balanced`: **what is promised of the workers of a run**.
-/

namespace Slab

namespace Settings.Workers

variable {w : Workers} {n p q i j k : ℕ}

/-- The place in the list from which worker `index` takes its processor. -/
def turn (w : Workers) (index : ℕ) : ℕ := index % w.cpus.length

/-- How many of the first `n` workers take their processor from place `p`. -/
def share (w : Workers) (n p : ℕ) : ℕ := Nat.count (fun i => w.turn i = p) n

/-- What is promised of a list of processors. -/
structure InTurn (w : Workers) : Prop where
  /-- An empty list binds nobody. -/
  empty : w.cpus = [] → ∀ i, w.cpuFor i = none
  /-- Any number of a worker leads to a place in the list. -/
  inRange : w.cpus ≠ [] → ∀ i, ∃ h : w.turn i < w.cpus.length, w.cpuFor i = some w.cpus[w.turn i]
  listed : ∀ i cpu, w.cpuFor i = some cpu → cpu ∈ w.cpus
  /-- The places share the workers evenly, and those in front get the larger share. -/
  shares : ∀ n, ∀ p < w.cpus.length, w.share n p =
    if p < n % w.cpus.length then n ⌈/⌉ w.cpus.length else n / w.cpus.length
  descending : ∀ n p q, p ≤ q → q < w.cpus.length →
    w.share n q ≤ w.share n p ∧ w.share n p ≤ w.share n q + 1
  /-- As many workers in a row as there are places use every place once, -/
  rounds : ∀ k, ((List.range' k w.cpus.length).map w.turn).Perm (List.range w.cpus.length)
  /-- and so all processors. -/
  handed : ∀ k, ((List.range' k w.cpus.length).map w.cpuFor).Perm (w.cpus.map some)
  /-- Two workers have the same one only if all have been used by the workers before. -/
  exhausted : w.cpus.Nodup → ∀ i j, i < j → w.cpuFor i = w.cpuFor j →
    ∀ cpu ∈ w.cpus, ∃ k < j, w.cpuFor k = some cpu

theorem turn_lt (hlist : w.cpus ≠ []) (i : ℕ) : w.turn i < w.cpus.length :=
  Nat.mod_lt i (List.length_pos_iff.2 hlist)

theorem cpuFor_of_ne_nil (hlist : w.cpus ≠ []) (i : ℕ) :
    ∃ h : w.turn i < w.cpus.length, w.cpuFor i = some w.cpus[w.turn i] :=
  ⟨turn_lt hlist i, List.getElem?_eq_getElem _⟩

/-- The first workers take the processors in the order of the list. -/
theorem cpuFor_of_lt (hi : i < w.cpus.length) : w.cpuFor i = some w.cpus[i] := by
  rw [cpuFor, Nat.mod_eq_of_lt hi, List.getElem?_eq_getElem hi]

theorem mem_cpus {cpu : UInt64} (h : w.cpuFor i = some cpu) : cpu ∈ w.cpus :=
  List.mem_of_getElem? h

/-- The places in front get one worker more while a round is not complete. -/
theorem share_eq (hp : p < w.cpus.length) :
    w.share n p = n / w.cpus.length + if p < n % w.cpus.length then 1 else 0 := by
  have hcount := Nat.count_modEq_card n (Nat.zero_lt_of_lt hp) p
  simp only [Nat.ModEq, Nat.mod_eq_of_lt hp] at hcount
  exact hcount

theorem ceilDiv_eq_succ (hk : 0 < k) (hn : 0 < n % k) : n ⌈/⌉ k = n / k + 1 := by
  have hround : n + k - 1 = n % k - 1 + k * (n / k + 1) := by
    have := Nat.mod_add_div n k
    rw [Nat.mul_succ]
    omega
  have hlt : n % k - 1 < k := by
    have := Nat.mod_lt n hk
    omega
  rw [Nat.ceilDiv_eq_add_pred_div, hround, Nat.add_mul_div_left _ _ hk, Nat.div_eq_of_lt hlt,
    Nat.zero_add]

/-- Two workers that are closer than the list is long have different turns. -/
theorem turn_ne (hij : i < j) (hj : j < i + w.cpus.length) : w.turn i ≠ w.turn j := by
  intro h
  have hdvd : w.cpus.length ∣ j - i := (Nat.modEq_iff_dvd' hij.le).1 h
  have hle := Nat.le_of_dvd (by omega) hdvd
  omega

/-- A round uses every place once. -/
theorem perm_turns (w : Workers) (k : ℕ) :
    ((List.range' k w.cpus.length).map w.turn).Perm (List.range w.cpus.length) := by
  have hround := Nat.multiset_Ico_map_mod k w.cpus.length
  have hIco : Multiset.Ico k (k + w.cpus.length) = (List.range' k w.cpus.length : List ℕ) := by
    show ((List.range' k (k + w.cpus.length - k) : List ℕ) : Multiset ℕ) = _
    rw [Nat.add_sub_cancel_left]
  rw [hIco] at hround
  exact Multiset.coe_eq_coe.1 hround

theorem map_getElem?_range (l : List UInt64) :
    (List.range l.length).map (fun p => l[p]?) = l.map some := by
  apply List.ext_getElem?
  intro i
  by_cases hi : i < l.length
  · simp [hi]
  · simp [hi]

theorem perm_cpuFor (w : Workers) (k : ℕ) :
    ((List.range' k w.cpus.length).map w.cpuFor).Perm (w.cpus.map some) := by
  have hmap : (List.range' k w.cpus.length).map w.cpuFor =
      ((List.range' k w.cpus.length).map w.turn).map fun p => w.cpus[p]? := by
    rw [List.map_map]
    rfl
  rw [hmap, ← map_getElem?_range]
  exact (w.perm_turns k).map _

/-- With different processors in the list, the turn of a worker can be told from its processor. -/
theorem cpuFor_eq_iff (hnodup : w.cpus.Nodup) (hp : p < w.cpus.length) :
    w.cpuFor i = some w.cpus[p] ↔ w.turn i = p := by
  obtain ⟨hi, hcpu⟩ := cpuFor_of_ne_nil (List.ne_nil_of_length_pos (Nat.zero_lt_of_lt hp)) i
  rw [hcpu, Option.some.injEq, hnodup.getElem_inj_iff]

/-- **The processors of a list are handed out in turn.** -/
theorem inTurn (w : Workers) : InTurn w where
  empty hlist i := by
    rw [cpuFor, hlist]
    rfl
  inRange := cpuFor_of_ne_nil
  listed _ _ := mem_cpus
  shares n p hp := by
    rw [share_eq hp]
    split_ifs with hlt
    · exact (ceilDiv_eq_succ (by omega) (by omega)).symm
    · rfl
  descending n p q hpq hq := by
    rw [share_eq hq, share_eq (by omega)]
    split_ifs <;> omega
  rounds := w.perm_turns
  handed := w.perm_cpuFor
  exhausted hnodup i j hij h cpu hcpu := by
    obtain ⟨hj, hsame⟩ := cpuFor_of_ne_nil (List.ne_nil_of_mem hcpu) j
    have hturn := (cpuFor_eq_iff hnodup hj).1 (h.trans hsame)
    -- the two workers are at least a round apart, so the first round was before the second one
    have hfar : ¬ j < i + w.cpus.length := fun hj => turn_ne hij hj hturn
    obtain ⟨k, hk, rfl⟩ := List.getElem_of_mem hcpu
    exact ⟨k, by omega, cpuFor_of_lt hk⟩

end Settings.Workers

namespace Run

variable {s : Settings} {o : Overrides}

/-- What is promised of the workers of a run. -/
structure Balanced (s : Settings) (o : Overrides) : Prop where
  /-- Every worker of the run has its entry, -/
  length : (processors s o).length = workerCount s o
  reported : ∀ host r reports, (run host s o r).2 = .ok reports →
    reports.length = (processors s o).length
  /-- which says the processor that its number leads to. -/
  entry : ∀ i < workerCount s o, (processors s o)[i]? = some (s.workers.cpuFor i)
  inTurn : s.workers.InTurn
  /-- With different processors in the list every one gets the share of its place. -/
  shares : s.workers.cpus.Nodup → ∀ (p : ℕ) (hp : p < s.workers.cpus.length),
    (processors s o).count (some s.workers.cpus[p]) = s.workers.share (workerCount s o) p

theorem length_workAll (g : Pool.Slots) (iterations : ℕ) (time : ℕ → ℕ → UInt64) (l : List ℕ)
    (f : Floor) : (workAll g iterations time l f).2.length = l.length := by
  induction l generalizing f with
  | nil => rfl
  | cons index l ih => exact congrArg (· + 1) (ih _)

/-- A run that starts has a report of every worker. -/
theorem length_reports {host : Host} {r : Metrics.Recorder} {reports : List Report}
    (h : (run host s o r).2 = .ok reports) : reports.length = workerCount s o := by
  unfold run at h
  split at h
  · cases h
  · cases h
    rw [length_workAll, List.length_range]

/-- As many of the first workers have the processor at a place as take theirs from that place. -/
theorem count_cpuFor {w : Settings.Workers} (hnodup : w.cpus.Nodup) {p : ℕ}
    (hp : p < w.cpus.length) (n : ℕ) :
    ((List.range n).map w.cpuFor).count (some w.cpus[p]) = w.share n p := by
  induction n with
  | zero => rfl
  | succ n ih =>
    rw [List.range_succ, List.map_append, List.count_append, ih, Settings.Workers.share,
      Settings.Workers.share, Nat.count_succ, List.map_singleton, List.count_singleton]
    simp only [beq_iff_eq, Settings.Workers.cpuFor_eq_iff hnodup hp]

/-- **The workers of a run are spread evenly over the listed processors.** -/
theorem balanced (s : Settings) (o : Overrides) : Balanced s o where
  length := by simp [processors]
  reported host r reports h := by simp [length_reports h, processors]
  entry i hi := by simp [processors, hi]
  inTurn := s.workers.inTurn
  shares hnodup _ hp := count_cpuFor hnodup hp _

example : processors { workers := { threads := 3, cpus := [2, 3] } } {} =
    [some 2, some 3, some 2] := by decide

end Run
end Slab
