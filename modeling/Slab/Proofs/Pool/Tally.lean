import Slab.Proofs.Pool.Census

/-!
# What happens in a run, and how often

A counter counts what the calls bring about: slots handed out and given back, requests that found
no free slot, exchanges that failed. A failed exchange is counted one step after it failed, all else
in the very step that brings it about.

* `Call.brought?`, `Call.owes`: what the step to a point of a call has brought about, and whether it
  is still to be counted, with `Call.marks_add_owes`;
* `Crew.brings`: what an event brings about;
* `Crew.times`: how many events of a run are of a kind;
* `Crew.times_isMark_add_owed`: **whatever is brought about in a run is counted, but for the calls
  that have still to do so**;
* `Crew.toNat_count_run`, `Crew.toNat_count_run_le`: the counters after a run.
-/

namespace Slab.Pool

namespace Call

/-- What the step to this point has brought about, named by the counter that counts it. -/
def brought? : Call → Option Counter
  | acquired _ => some .acquired
  | exhausted => some .exhausted
  | released => some .released
  | acquireLost _ | releaseLost _ _ => some .contended
  | _ => none

/-- Whether something has been brought about and not yet counted. -/
def owes (k : Counter) : Call → Bool
  | acquireLost _ | releaseLost _ _ => k = .contended
  | _ => false

theorem owes_of_isDone {c : Call} (h : c.isDone) (k : Counter) : c.owes k = false := by
  cases c <;> first | rfl | cases h

/-- What the next step of a call brings about. -/
def brings (g : Slots) (spurious : Bool) (s : Shared) (c : Call) : Option Counter :=
  if c.isDone then none else (c.step g spurious s).2.brought?

theorem brings_of_pending {c : Call} (h : c.isDone = false) (g : Slots) (spurious : Bool)
    (s : Shared) : c.brings g spurious s = (c.step g spurious s).2.brought? := by
  rw [brings, h]
  rfl

/-- One step counts what was owed or what it brings about itself, unless it is owed afterwards. -/
theorem marks_add_owes (g : Slots) (spurious : Bool) (s : Shared) (c : Call) (k : Counter) :
    (decide (c.marks = some k)).toNat + ((c.step g spurious s).2.owes k).toNat =
      (decide (c.brings g spurious s = some k)).toNat + (c.owes k).toNat := by
  cases c with
  | acquireSeen hd =>
    rw [brings_of_pending rfl]
    by_cases hn : hd.index = nil
    · simp only [step, marks, if_pos hn]
      cases k <;> rfl
    · simp only [step, marks, if_neg hn]
      cases k <;> rfl
  | acquireLinked hd _ | releaseLinked _ hd =>
    rw [brings_of_pending rfl]
    by_cases hs : s.head = hd ∧ spurious = false
    · simp only [step, if_pos hs]
      cases k <;> rfl
    · simp only [step, if_neg hs]
      cases k <;> rfl
  | acquire | acquireLost _ | acquireWon _ | acquired _ | exhausted | release _ | releaseSeen _ _
  | releaseLost _ _ | releaseWon _ | released =>
    cases k <;> rfl

end Call

namespace Crew

variable {ι : Type} [DecidableEq ι] {g : Slots} {c : Crew ι} {e : Event ι} {es es' : List (Event ι)}

/-- What an event brings about. -/
def brings (g : Slots) (c : Crew ι) : Event ι → Option Counter
  | .go t spurious => (c.call t).brings g spurious c.shared
  | _ => none

/-- How many events of a run are of a kind, which may depend on the state that they meet. -/
def times (g : Slots) (kind : Crew ι → Event ι → Bool) : Crew ι → List (Event ι) → ℕ
  | _, [] => 0
  | c, e :: es => (kind c e).toNat + times g kind (c.step g e) es

section Times

variable {kind : Crew ι → Event ι → Bool}

@[simp] theorem times_nil (c : Crew ι) : times g kind c [] = 0 := rfl

theorem times_append (c : Crew ι) (es es' : List (Event ι)) :
    times g kind c (es ++ es') = times g kind c es + times g kind (run g c es) es' := by
  induction es generalizing c with
  | nil => simp
  | cons e es ih =>
    rw [List.cons_append, times, ih, times, run_cons]
    omega

theorem times_concat (c : Crew ι) (es : List (Event ι)) (e : Event ι) :
    times g kind c (es ++ [e]) = times g kind c es + (kind (run g c es) e).toNat := by
  rw [times_append, times, times_nil, Nat.add_zero]

end Times

/-- The event raises the counter. -/
def isMark (k : Counter) (c : Crew ι) (e : Event ι) : Bool := c.marks e = some k

/-- The event brings about what the counter counts. -/
def isDeed (g : Slots) (k : Counter) (c : Crew ι) (e : Event ι) : Bool := c.brings g e = some k

/-- How many calls have still to count what the counter counts. -/
noncomputable def owed (c : Crew ι) (k : Counter) : ℕ := census c.call (Call.owes k)

/-- One event counts what was owed or what it brings about itself, unless it is owed afterwards. -/
theorem isMark_add_owed (h : c.Few) (e : Event ι) (k : Counter) :
    (c.isMark k e).toNat + (c.step g e).owed k = (c.isDeed g k e).toNat + c.owed k := by
  have hfin : {t | Call.owes k (c.call t)}.Finite :=
    Set.Finite.subset h fun t ht hdone => by simp [Call.owes_of_isDone hdone] at ht
  -- whoever begins a call owes nothing, neither before nor after
  have begins : ∀ t x, (c.call t).isDone → Call.owes k x = false →
      census (Function.update c.call t x) (Call.owes k) = c.owed k := by
    intro t x hdone hx
    have hcensus := census_update hfin t x
    rw [Call.owes_of_isDone hdone, hx] at hcensus
    exact hcensus
  cases e with
  | go t spurious =>
    have hstep := Call.marks_add_owes g spurious c.shared (c.call t) k
    have hcensus := census_update hfin t ((c.call t).step g spurious c.shared).2
    show (decide ((c.call t).marks = some k)).toNat + census (Function.update c.call t _) _ =
      (decide ((c.call t).brings g spurious c.shared = some k)).toNat + census c.call _
    omega
  | take t =>
    rw [step]
    split_ifs with hd
    · exact congrArg (0 + ·) (begins t _ hd rfl)
    · rfl
  | give t slot =>
    rw [step]
    split_ifs with hd
    · exact congrArg (0 + ·) (begins t _ hd.1 rfl)
    · rfl
  | write _ _ _ | elsewhere _ _ =>
    rw [step]
    split <;> rfl

/-- **Whatever is brought about in a run is counted**, but for the calls that have still to do so.
-/
theorem times_isMark_add_owed (h : c.Few) (es : List (Event ι)) (k : Counter) :
    times g (isMark k) c es + (run g c es).owed k = times g (isDeed g k) c es + c.owed k := by
  induction es generalizing c with
  | nil => rfl
  | cons e es ih =>
    have hstep := isMark_add_owed (g := g) h e k
    have hrest := ih (h.step (g := g) e)
    rw [run_cons, times, times]
    omega

/-- A counter that does not go round tells how often it has been raised. -/
theorem toNat_count_run (h : Roomy g c es) (k : Counter) :
    ((run g c es).shared.counters.count k).toNat =
      (c.shared.counters.count k).toNat + times g (isMark k) c es := by
  induction es generalizing c with
  | nil => rfl
  | cons e es ih =>
    rw [run_cons, ih h.2, toNat_count_step h.1, times, isMark, Nat.add_assoc]
    by_cases hk : c.marks e = some k <;> simp [hk]

/-- A counter that may go round does not tell more. -/
theorem toNat_count_run_le (c : Crew ι) (es : List (Event ι)) (k : Counter) :
    ((run g c es).shared.counters.count k).toNat ≤
      (c.shared.counters.count k).toNat + times g (isMark k) c es := by
  induction es generalizing c with
  | nil => exact Nat.le_refl _
  | cons e es ih =>
    have hstep : ((c.step g e).shared.counters.count k).toNat ≤
        (c.shared.counters.count k).toNat + (c.isMark k e).toNat := by
      rw [count_step, isMark]
      by_cases hk : c.marks e = some k
      · simp only [hk, if_true, decide_true, Bool.toNat_true]
        rw [UInt64.toNat_add]
        exact Nat.mod_le _ _
      · simp [hk]
    have hrest := ih (c.step g e)
    rw [run_cons, times]
    omega

omit [DecidableEq ι] in
theorem owed_eq_zero (hdone : ∀ t, (c.call t).isDone) (k : Counter) : c.owed k = 0 :=
  census_eq_zero fun t => Call.owes_of_isDone (hdone t) k

end Crew
end Slab.Pool
