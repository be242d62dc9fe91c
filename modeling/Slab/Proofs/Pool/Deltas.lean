import Mathlib.Algebra.BigOperators.Group.Finset.Basic
import Slab.Proofs.Pool.Linearization
import Slab.Proofs.Pool.Observation
import Slab.Proofs.Pool.Tally

/-!
# What happened between two snapshots

Snapshots that are taken while no call is under way differ by just what happened in between, and the
differences of the snapshots of a series add up to that of the last and the first one.

* `Snapshot.Growth`: what is promised of the difference of any two snapshots;
* `Crew.snapshotAt`, `Crew.deeds`: the snapshot after so many events of a run, and what the events
  between two points have brought about;
* `Crew.AddUp`, `Crew.addUp_run`: **what is promised of the snapshots of a run**.
-/

namespace Slab.Pool

namespace Snapshot

/-- What is promised of the difference of any two snapshots. -/
structure Growth (now earlier delta : Snapshot) : Prop where
  le : ∀ k, delta.count k ≤ now.count k
  zero : ∀ k, now.count k ≤ earlier.count k → delta.count k = 0
  add : ∀ k, earlier.count k ≤ now.count k → earlier.count k + delta.count k = now.count k
  inUse : delta.inUse = now.inUse

theorem count_since (now earlier : Snapshot) (k : Counter) :
    (now.since earlier).count k = satSub (now.count k) (earlier.count k) := by
  cases k <;> rfl

theorem toNat_count_since (now earlier : Snapshot) (k : Counter) :
    ((now.since earlier).count k).toNat = (now.count k).toNat - (earlier.count k).toNat := by
  rw [count_since, toNat_satSub]

/-- **No difference is cut off wrongly.** -/
theorem growth_since (now earlier : Snapshot) : Growth now earlier (now.since earlier) where
  le k := by
    show ((now.since earlier).count k).toNat ≤ (now.count k).toNat
    rw [toNat_count_since]
    exact Nat.sub_le _ _
  zero k hle := by
    have hle' : (now.count k).toNat ≤ (earlier.count k).toNat := hle
    apply UInt64.toNat_inj.1
    rw [toNat_count_since, Nat.sub_eq_zero_of_le hle', UInt64.toNat_zero]
  add k hle := by
    rw [count_since, satSub, if_pos hle, UInt64.add_comm, UInt64.sub_add_cancel]
  inUse := rfl

end Snapshot

namespace Crew

variable {ι : Type} [DecidableEq ι] {g : Slots} {c : Crew ι} {es es' : List (Event ι)} {a b : ℕ}

theorem roomy_append :
    Roomy g c (es ++ es') ↔ Roomy g c es ∧ Roomy g (run g c es) es' := by
  induction es generalizing c with
  | nil => simp [Roomy]
  | cons e es ih =>
    rw [List.cons_append, Roomy, Roomy, ih, run_cons]
    exact and_assoc.symm

/-- The books are kept along every run in which no counter goes round. -/
theorem Books.run (h : Books c) (hes : Roomy g c es) : Books (run g c es) := by
  induction es generalizing c with
  | nil => exact h
  | cons e es ih => exact ih (h.step hes.1) hes.2

/-- The events between two points. -/
def between (es : List (Event ι)) (a b : ℕ) : List (Event ι) := (es.take b).drop a

omit [DecidableEq ι] in
theorem take_append_between (hab : a ≤ b) : es.take a ++ between es a b = es.take b := by
  have hsplit := List.take_append_drop a (es.take b)
  rwa [List.take_take, Nat.min_eq_left hab] at hsplit

theorem after_eq_run (hab : a ≤ b) :
    after g c es b = run g (after g c es a) (between es a b) := by
  rw [after, after, ← run_append, take_append_between hab]

theorem roomy_between (hes : Roomy g c es) (hab : a ≤ b) :
    Roomy g c (es.take a) ∧ Roomy g (after g c es a) (between es a b) := by
  rw [← List.take_append_drop b es, roomy_append, ← take_append_between hab, roomy_append] at hes
  exact hes.1

/-- No call is under way. -/
def Quiet (c : Crew ι) : Prop := ∀ t, (c.call t).isDone = true

/-- The snapshot that is taken after `n` events of a run. -/
def snapshotAt (p : Pool) (c : Crew ι) (es : List (Event ι)) (n : ℕ) : Snapshot :=
  (p.update (after p.slots c es n).shared).snapshot

/-- How often the events between two points have brought about what the counter counts. -/
def deeds (g : Slots) (c : Crew ι) (es : List (Event ι)) (a b : ℕ) (k : Counter) : ℕ :=
  times g (isDeed g k) (after g c es a) (between es a b)

/-- What is promised of the snapshots of a run. -/
structure AddUp (p : Pool) (c : Crew ι) (es : List (Event ι)) : Prop where
  /-- From one quiet point to a later one a counter grows by what has happened in between, -/
  exact : ∀ a b, a ≤ b → Quiet (after p.slots c es a) → Quiet (after p.slots c es b) →
    ∀ k, (((snapshotAt p c es b).since (snapshotAt p c es a)).count k).toNat =
      deeds p.slots c es a b k
  /-- and the slots that were out before, with those handed out since, are those that are out now,
  with those given back since. -/
  occupancy : ∀ a b, a ≤ b → Quiet (after p.slots c es a) → Quiet (after p.slots c es b) →
    let delta := (snapshotAt p c es b).since (snapshotAt p c es a)
    delta.inUse = (snapshotAt p c es b).inUse ∧
      delta.inUse.toNat = (after p.slots c es b).held.length ∧
      (snapshotAt p c es a).inUse.toNat + delta.acquired.toNat =
        delta.inUse.toNat + delta.released.toNat
  /-- The growth from point to point adds up to that from the first to the last one. -/
  sum : ∀ points : ℕ → ℕ, Monotone points → ∀ n k,
    ∑ i ∈ Finset.range n, (((snapshotAt p c es (points (i + 1))).since
        (snapshotAt p c es (points i))).count k).toNat =
      (((snapshotAt p c es (points n)).since (snapshotAt p c es (points 0))).count k).toNat

variable {p : Pool}

theorem count_snapshotAt (p : Pool) (c : Crew ι) (es : List (Event ι)) (n : ℕ) (k : Counter) :
    (snapshotAt p c es n).count k = (after p.slots c es n).shared.counters.count k := by
  cases k <;> rfl

/-- A counter grows by the number of times that it is raised. -/
theorem toNat_count_snapshotAt (hes : Roomy p.slots c es) (hab : a ≤ b) (k : Counter) :
    ((snapshotAt p c es b).count k).toNat = ((snapshotAt p c es a).count k).toNat +
      times p.slots (isMark k) (after p.slots c es a) (between es a b) := by
  rw [count_snapshotAt, count_snapshotAt, after_eq_run hab]
  exact toNat_count_run (roomy_between hes hab).2 k

/-- Between two quiet points whatever is brought about is counted. -/
theorem times_isMark_of_quiet (hfew : (after g c es a).Few) (hab : a ≤ b)
    (ha : Quiet (after g c es a)) (hb : Quiet (after g c es b)) (k : Counter) :
    times g (isMark k) (after g c es a) (between es a b) = deeds g c es a b k := by
  have hcounted := times_isMark_add_owed (g := g) hfew (between es a b) k
  rw [← after_eq_run hab, owed_eq_zero ha, owed_eq_zero hb] at hcounted
  exact hcounted

omit [DecidableEq ι] in
theorem Books.toNat_inUse (h : Books c) (hquiet : Quiet c) :
    c.shared.counters.inUse.toNat = c.held.length := by
  have hsettled := h.settled hquiet
  rw [Counters.inUse, toNat_satSub]
  omega

/-- **The snapshots of a run add up.** -/
theorem Books.addUp (h : Books c) (hes : Roomy p.slots c es) : AddUp p c es where
  exact a b hab ha hb k := by
    have hfew : (after p.slots c es a).Few := (h.run (roomy_between hes hab).1).finite
    have hgrowth := toNat_count_snapshotAt hes hab k
    rw [times_isMark_of_quiet hfew hab ha hb] at hgrowth
    rw [Snapshot.toNat_count_since]
    omega
  occupancy a b hab ha hb := by
    have hbooks_a : Books (after p.slots c es a) := h.run (roomy_between hes hab).1
    have hbooks_b : Books (after p.slots c es b) := h.run (roomy_between hes (Nat.le_refl b)).1
    have hinUse_b := hbooks_b.toNat_inUse hb
    refine ⟨rfl, hinUse_b, ?_⟩
    have hinUse_a := hbooks_a.toNat_inUse ha
    have hsettled_a := hbooks_a.settled ha
    have hsettled_b := hbooks_b.settled hb
    have hacquired : (after p.slots c es a).shared.counters.acquired.toNat ≤
        (after p.slots c es b).shared.counters.acquired.toNat :=
      Nat.le.intro (toNat_count_snapshotAt hes hab .acquired).symm
    have hreleased : (after p.slots c es a).shared.counters.released.toNat ≤
        (after p.slots c es b).shared.counters.released.toNat :=
      Nat.le.intro (toNat_count_snapshotAt hes hab .released).symm
    show (after p.slots c es a).shared.counters.inUse.toNat +
        (satSub (after p.slots c es b).shared.counters.acquired
          (after p.slots c es a).shared.counters.acquired).toNat =
      (after p.slots c es b).shared.counters.inUse.toNat +
        (satSub (after p.slots c es b).shared.counters.released
          (after p.slots c es a).shared.counters.released).toNat
    rw [toNat_satSub, toNat_satSub]
    omega
  sum points hpoints n k := by
    have hmono : Monotone fun i => ((snapshotAt p c es (points i)).count k).toNat := by
      intro i j hij
      have hgrowth := toNat_count_snapshotAt hes (hpoints hij) k
      exact Nat.le.intro hgrowth.symm
    simp only [Snapshot.toNat_count_since]
    exact Finset.sum_range_tsub hmono n

/-- **Periodic differences add up**: whatever any number of threads do with a new pool, in whatever
order their steps come, as long as no counter goes round. -/
theorem addUp_run {m : Memory} (h : New p m) {es : List (Event ι)}
    (hes : Roomy p.slots (start (p.shared m)) es) :
    AddUp p (start (p.shared m)) es ∧
      ∀ now earlier : Snapshot, Snapshot.Growth now earlier (now.since earlier) := by
  obtain ⟨shape, m₀, hb⟩ := h.built
  exact ⟨(Books.start hb.counters_eq).addUp hes, Snapshot.growth_since⟩

/-- Two threads at a pool of two slots. The first one takes slot 0. While the second one is about to
take slot 1 the first one gives slot 0 back, so that the second one has to try again and gets
slot 0. Then the first one takes slot 1 and finds no other one. -/
def rounds : List (Event Bool) :=
  [.take true, .go true false, .go true false, .go true false, .go true false,
    .take false, .go false false, .go false false,
    .give true 0, .go true false, .go true false, .go true false, .go true false,
    .go false false, .go false false, .go false false, .go false false, .go false false,
    .take true, .go true false, .go true false, .go true false, .go true false,
    .take true, .go true false, .go true false]

theorem addUp_rounds :
    let snapshot := snapshotAt twoSlots pair rounds
    New twoSlots (linkSlots twoSlots.slots .zero) ∧ Roomy twoSlots.slots pair rounds ∧
      (∀ n ∈ [0, 5, 18, 26], Quiet (after twoSlots.slots pair rounds n)) ∧
      [(snapshot 5).since (snapshot 0), (snapshot 18).since (snapshot 5),
          (snapshot 26).since (snapshot 18)] =
        [⟨1, 0, 0, 0, 1⟩, ⟨1, 1, 0, 1, 1⟩, ⟨1, 0, 1, 0, 2⟩] ∧
      AddUp twoSlots pair rounds := by
  have hroomy : Roomy twoSlots.slots pair rounds :=
    roomy_of_lt (n := 0) (fun k => by cases k <;> decide) (by decide)
  refine ⟨new_twoSlots, hroomy, ?_, by decide, (addUp_run new_twoSlots hroomy).1⟩
  unfold Quiet
  decide

end Crew
end Slab.Pool
